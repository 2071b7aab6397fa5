import Mathlib.Data.List.DropRight
import Mathlib.Data.List.ReduceOption
import TetrisMachine.Listing
import TetrisMachine.Proofs.Text.Numerals

/-!
# The grammar of listings

A listing is read line by line. What counts of a line stands before the first `#`, without the
blanks around it; it is nothing at all, or it spells a word. A listing with another line is
refused, and the error names the first such line.

* `Listing.Line`: the lines of the grammar, with what they hold.
* `Listing.Written`, `Listing.Writes`: all the ways to write a line, and to write words in lines.
* `Listing.parse_exact`: the grammar is what is read.
-/

namespace TetrisMachine

namespace Text

/-! ### Trimming -/

/-- There is no character but blanks. -/
def Blank (cs : List Char) : Prop :=
  ∀ c ∈ cs, isBlank c

/-- There is no blank at either end. -/
def Trimmed (cs : List Char) : Prop :=
  (∀ c ∈ cs.head?, ¬ isBlank c) ∧ ∀ c ∈ cs.getLast?, ¬ isBlank c

section

variable {cs before after : List Char}

instance : Decidable (Blank cs) :=
  List.decidableBAll (isBlank ·) cs

theorem Blank.reverse (h : Blank cs) : Blank cs.reverse :=
  fun c hc => h c (List.mem_reverse.1 hc)

theorem dropWhile_of_head (h : ∀ c ∈ cs.head?, ¬ isBlank c) : cs.dropWhile isBlank = cs := by
  cases cs with
  | nil => rfl
  | cons c cs => exact List.dropWhile_cons_of_neg (h c rfl)

/-- What is trimmed may stand between blanks. -/
theorem trim_append (hbefore : Blank before) (hafter : Blank after) (h : Trimmed cs) :
    trim (before ++ cs ++ after) = cs := by
  unfold trim
  rw [List.append_assoc, List.dropWhile_append_of_pos hbefore]
  by_cases hcs : cs = []
  · rw [hcs, List.nil_append, List.dropWhile_eq_nil_iff.2 hafter]
    rfl
  · have hhead : (cs ++ after).dropWhile isBlank = cs ++ after := by
      apply dropWhile_of_head
      rw [List.head?_append_of_ne_nil _ hcs]
      exact h.1
    have hlast : cs.reverse.dropWhile isBlank = cs.reverse := by
      apply dropWhile_of_head
      rw [List.head?_reverse]
      exact h.2
    rw [hhead, List.reverse_append, List.dropWhile_append_of_pos hafter.reverse, hlast,
      List.reverse_reverse]

/-- What is trimmed off is blank. -/
theorem exists_trim (cs : List Char) :
    ∃ before after, cs = before ++ trim cs ++ after ∧ Blank before ∧ Blank after := by
  refine ⟨cs.takeWhile isBlank, (cs.dropWhile isBlank).rtakeWhile isBlank, ?_,
    fun c => List.mem_takeWhile_imp, fun c => List.mem_rtakeWhile_imp⟩
  have htrim : trim cs = (cs.dropWhile isBlank).rdropWhile isBlank := rfl
  rw [htrim, List.append_assoc, List.rdropWhile_append_rtakeWhile,
    List.takeWhile_append_dropWhile]

theorem trimmed_trim (cs : List Char) : Trimmed (trim cs) := by
  have hdrop (l : List Char) : ∀ c ∈ (l.dropWhile isBlank).head?, ¬ isBlank c := by
    intro c hc
    have hhead := List.head?_dropWhile_not isBlank l
    rw [hc] at hhead
    simp [hhead]
  constructor
  · intro c hc
    -- what is dropped at the end leaves the first character in its place
    obtain ⟨after, hafter⟩ : trim cs <+: cs.dropWhile isBlank := List.rdropWhile_prefix isBlank _
    apply hdrop cs c
    rw [← hafter, List.head?_append, hc]
    rfl
  · intro c hc
    rw [trim, List.getLast?_reverse] at hc
    exact hdrop _ c hc

end

end Text

open Text

namespace Listing

/-! ### What a line holds -/

/-- The text is a comment, or nothing. -/
def Comment (cs : List Char) : Prop :=
  cs = [] ∨ ∃ rest, cs = '#' :: rest

/-- A line holds a text: it stands before the first `#`, with blanks around it and no blank at its
ends. -/
def Holds (line text : List Char) : Prop :=
  ∃ before after comment, line = before ++ text ++ after ++ comment ∧ Blank before ∧
    Blank after ∧ Comment comment ∧ '#' ∉ text ∧ Trimmed text

/-- The marks that may stand before the digits of a word. -/
def Mark (cs : List Char) : Prop :=
  cs = [] ∨ cs = ['0', 'x'] ∨ cs = ['0', 'X']

/-- A text spells a word: a mark perhaps, then a hexadecimal numeral when underscores are left
out. -/
def Spells (text : List Char) (w : Word) : Prop :=
  ∃ mark body, text = mark ++ body ∧ Mark mark ∧
    Numeral.Spells 16 (body.filter (· ≠ '_')) w.toNat

/-- The lines of the grammar, with the word of each. -/
inductive Line : List Char → Option Word → Prop
  | empty {line : List Char} (h : Holds line []) : Line line none
  | word {line text : List Char} {w : Word} (h : Holds line text) (hword : Spells text w) :
      Line line (some w)

section

variable {line text cs : List Char} {w : Word} {word : Option Word} {number : Nat}
  {e : ListingError}

theorem notMem_of_blank (h : Blank cs) : '#' ∉ cs :=
  fun hc => absurd (h _ hc) (by decide)

theorem takeWhile_comment (h : Comment cs) : cs.takeWhile (· ≠ '#') = [] := by
  rcases h with rfl | ⟨rest, rfl⟩ <;> rfl

/-- **What a line holds** is what its content is. -/
theorem holds_iff : Holds line text ↔ content line = text := by
  constructor
  · rintro ⟨before, after, comment, rfl, hbefore, hafter, hcomment, htext, htrimmed⟩
    have hall : ∀ c ∈ before ++ text ++ after, decide (c ≠ '#') = true := by
      rintro c hc
      rw [decide_eq_true_eq]
      rintro rfl
      rw [List.mem_append, List.mem_append] at hc
      exact hc.elim (·.elim (notMem_of_blank hbefore) htext) (notMem_of_blank hafter)
    rw [content, List.takeWhile_append_of_pos hall, takeWhile_comment hcomment, List.append_nil,
      trim_append hbefore hafter htrimmed]
  · rintro rfl
    obtain ⟨before, after, hsplit, hbefore, hafter⟩ := exists_trim (line.takeWhile (· ≠ '#'))
    refine ⟨before, after, line.dropWhile (· ≠ '#'), ?_, hbefore, hafter, ?_, ?_, trimmed_trim _⟩
    · rw [content, ← hsplit, List.takeWhile_append_dropWhile]
    · have hhead := List.head?_dropWhile_not (· ≠ '#') line
      cases hdrop : line.dropWhile (· ≠ '#') with
      | nil => exact .inl rfl
      | cons c rest =>
        rw [hdrop] at hhead
        have hc : c = '#' := by simpa using hhead
        exact .inr ⟨rest, hc ▸ rfl⟩
    · intro hmem
      have hne := List.mem_takeWhile_imp (mem_of_mem_trim hmem)
      simp at hne

/-- A carriage return at the end of a line does not count. -/
theorem Holds.append_return (h : Holds line text) : Holds (line ++ ['\r']) text := by
  obtain ⟨before, after, comment, rfl, hbefore, hafter, hcomment, htext, htrimmed⟩ := h
  rcases hcomment with rfl | ⟨rest, rfl⟩
  · have hblank : Blank (after ++ ['\r']) := by
      intro c hc
      rcases List.mem_append.1 hc with hc | hc
      · exact hafter c hc
      · rw [List.mem_singleton.1 hc]
        decide
    exact ⟨before, after ++ ['\r'], [], by simp, hbefore, hblank, .inl rfl, htext, htrimmed⟩
  · exact ⟨before, after, '#' :: (rest ++ ['\r']), by simp, hbefore, hafter, .inr ⟨_, rfl⟩, htext,
      htrimmed⟩

/-! ### What a text spells -/

/-- A digit is no blank, and does not begin a comment. -/
theorem plain_of_isDigit {c : Char} {d : Nat} (h : IsDigit c d) : ¬ isBlank c ∧ c ≠ '#' :=
  h.elim (p := fun c => ¬ isBlank c ∧ c ≠ '#') (by decide)

theorem plain_of_mark {c : Char} (h : Mark cs) (hc : c ∈ cs) : ¬ isBlank c ∧ c ≠ '#' := by
  rcases h with rfl | rfl | rfl
  · cases hc
  · rcases List.mem_pair.1 hc with rfl | rfl <;> decide
  · rcases List.mem_pair.1 hc with rfl | rfl <;> decide

/-- What spells a word is read whole: it has no blank in it, and begins no comment. -/
theorem plain_of_spells (h : Spells text w) : ∀ c ∈ text, ¬ isBlank c ∧ c ≠ '#' := by
  obtain ⟨mark, body, rfl, hmark, hbody⟩ := h
  intro c hc
  rcases List.mem_append.1 hc with hc | hc
  · exact plain_of_mark hmark hc
  by_cases hscore : c = '_'
  · subst hscore
    decide
  rcases hbody.mem (List.mem_filter.2 ⟨hc, by simpa using hscore⟩) with rfl | ⟨d, hd⟩
  · decide
  · exact plain_of_isDigit hd

/-- A text without a mark spells what its digits spell, and an `x` is none. -/
theorem spells_iff : Spells text w ↔ Numeral.Spells 16 (digits text) w.toNat := by
  have hx {c : Char} (hc : c = 'x' ∨ c = 'X') {cs : List Char} :
      ¬ Numeral.Spells 16 (('0' :: c :: cs).filter (· ≠ '_')) w.toNat := by
    intro h
    have hmem : c ∈ ('0' :: c :: cs).filter (· ≠ '_') := by
      rcases hc with rfl | rfl <;> simp
    rcases h.mem hmem with rfl | ⟨d, hd⟩
    · simp at hc
    · rw [← digitValue?_eq_some_iff] at hd
      rcases hc with rfl | rfl <;> cases hd
  constructor
  · rintro ⟨mark, body, rfl, rfl | rfl | rfl, h⟩
    · rw [List.nil_append]
      unfold digits
      split
      · exact absurd h (hx (.inl rfl))
      · exact absurd h (hx (.inr rfl))
      · exact h
    · exact h
    · exact h
  · unfold digits
    split
    · exact fun h => ⟨['0', 'x'], _, rfl, .inr (.inl rfl), h⟩
    · exact fun h => ⟨['0', 'X'], _, rfl, .inr (.inr rfl), h⟩
    · exact fun h => ⟨[], _, rfl, .inl rfl, h⟩

theorem Spells.ne_nil (h : Spells text w) : text ≠ [] := by
  rintro rfl
  exact (spells_iff.1 h).ne_nil rfl

theorem Spells.unique {w' : Word} (h : Spells text w) (h' : Spells text w') : w = w' :=
  BitVec.eq_of_toNat_eq ((spells_iff.1 h).unique (by decide) (spells_iff.1 h'))

/-- The digits of a text are read when the text spells a word. -/
theorem read_digits_eq_ok_iff {n : Nat} :
    Numeral.read 16 0x100000000 (digits text) = .ok n ↔ ∃ w, Spells text w ∧ w.toNat = n := by
  rw [Numeral.read_eq_ok_iff (by decide) (by decide)]
  constructor
  · rintro ⟨hspells, hn⟩
    have hvalue : (BitVec.ofNat 32 n).toNat = n := Nat.mod_eq_of_lt hn
    exact ⟨BitVec.ofNat 32 n, spells_iff.2 (hvalue.symm ▸ hspells), hvalue⟩
  · rintro ⟨w, hword, rfl⟩
    exact ⟨spells_iff.1 hword, w.isLt⟩

/-- A line with a spelled word in it, between blanks and before a comment, holds the word. -/
theorem holds_of_spells {before after comment : List Char} (hbefore : Blank before)
    (hafter : Blank after) (hcomment : Comment comment) (h : Spells text w) :
    Holds (before ++ text ++ after ++ comment) text := by
  have hplain := plain_of_spells h
  refine ⟨before, after, comment, rfl, hbefore, hafter, hcomment, fun hc => (hplain _ hc).2 rfl,
    fun c hc => (hplain c ?_).1, fun c hc => (hplain c ?_).1⟩
  · exact List.mem_of_mem_head? hc
  · exact List.mem_of_mem_getLast? hc

/-! ### Reading one line -/

/-- **A line is read by the grammar**: what the line holds, and nothing for another line. -/
theorem parseLine_eq_ok_iff : parseLine number line = .ok word ↔ Line line word := by
  rw [parseLine]
  by_cases hempty : content line = []
  · rw [hempty, List.isEmpty_nil, if_pos rfl]
    constructor
    · intro h
      cases h
      exact .empty (holds_iff.2 hempty)
    · intro h
      cases h with
      | empty => rfl
      | word h hword => exact absurd (hempty ▸ holds_iff.1 h).symm hword.ne_nil
  rw [if_neg (by simpa using hempty)]
  cases hread : Numeral.read 16 0x100000000 (digits (content line)) with
  | ok n =>
    obtain ⟨w, hword, rfl⟩ := read_digits_eq_ok_iff.1 hread
    simp only [BitVec.ofNat_toNat, BitVec.setWidth_eq]
    constructor
    · intro h
      cases h
      exact .word (holds_iff.2 rfl) hword
    · intro h
      cases h with
      | empty h => exact absurd (holds_iff.1 h) hempty
      | word h hword' =>
        rw [← holds_iff.1 h] at hword'
        rw [hword.unique hword']
  | error cause =>
    refine iff_of_false nofun fun h => ?_
    cases h with
    | empty h => exact hempty (holds_iff.1 h)
    | word h hword =>
      rw [← holds_iff.1 h] at hword
      rw [read_digits_eq_ok_iff.2 ⟨_, hword, rfl⟩] at hread
      cases hread

/-- The error names a wrong line by its number and by what it holds. -/
theorem parseLine_eq_error (h : parseLine number line = .error e) :
    (∀ word, ¬ Line line word) ∧ e.number = number ∧ Holds line e.text.toList := by
  refine ⟨fun word hline => ?_, ?_⟩
  · rw [parseLine_eq_ok_iff.2 hline] at h
    cases h
  · rw [parseLine] at h
    split at h
    · cases h
    split at h
    · cases h
    · cases h
      exact ⟨rfl, holds_iff.2 String.toList_ofList.symm⟩

/-! ### Reading the lines -/

/-- The error names the first of some numbered lines that breaks the grammar, by its number and by
what it holds. -/
def Names (number : Nat) (lines : List (List Char)) (e : ListingError) : Prop :=
  ∃ before line after, lines = before ++ line :: after ∧ (∀ l ∈ before, ∃ word, Line l word) ∧
    (∀ word, ¬ Line line word) ∧ e.number = number + before.length ∧ Holds line e.text.toList ∧
    e.message = s!"line {number + before.length}: `{e.text}` is not an instruction word"

theorem parseLines_cons {rest : List (List Char)} {ws : List Word} (h : Line line word)
    (hrest : parseLines (number + 1) rest = .ok ws) :
    parseLines number (line :: rest) = .ok (word.toList ++ ws) := by
  rw [parseLines, parseLine_eq_ok_iff.2 h]
  exact bind_eq_ok.2 ⟨word, rfl, bind_eq_ok.2 ⟨ws, hrest, rfl⟩⟩

theorem parseLines_eq_ok_iff {lines : List (List Char)} {ws : List Word} :
    parseLines number lines = .ok ws ↔
      ∃ words, List.Forall₂ Line lines words ∧ ws = words.reduceOption := by
  induction lines generalizing number ws with
  | nil =>
    constructor
    · intro h
      cases h
      exact ⟨[], .nil, rfl⟩
    · rintro ⟨words, hwords, rfl⟩
      cases hwords
      rfl
  | cons line rest ih =>
    constructor
    · intro h
      rw [parseLines] at h
      obtain ⟨word, hword, h⟩ := bind_eq_ok.1 h
      obtain ⟨ws', hrest, h⟩ := bind_eq_ok.1 h
      obtain ⟨words, hwords, rfl⟩ := ih.1 hrest
      cases h
      refine ⟨word :: words, .cons (parseLine_eq_ok_iff.1 hword) hwords, ?_⟩
      cases word <;> rfl
    · rintro ⟨words, hwords, rfl⟩
      cases hwords with
      | @cons _ word _ words hline hrest =>
        rw [parseLines_cons hline (ih.2 ⟨words, hrest, rfl⟩)]
        cases word <;> rfl

theorem parseLines_eq_error {lines : List (List Char)} (h : parseLines number lines = .error e) :
    Names number lines e := by
  induction lines generalizing number with
  | nil => cases h
  | cons line rest ih =>
    rw [parseLines] at h
    cases hline : parseLine number line with
    | error e' =>
      rw [hline] at h
      cases h
      obtain ⟨hwrong, hnumber, htext⟩ := parseLine_eq_error hline
      exact ⟨[], line, rest, rfl, nofun, hwrong, hnumber, htext, by rw [← hnumber]; rfl⟩
    | ok word =>
      rw [hline] at h
      cases hrest : parseLines (number + 1) rest with
      | ok ws =>
        simp only [hrest] at h
        cases h
      | error e' =>
        simp only [hrest] at h
        cases h
        obtain ⟨before, wrong, after, rfl, hgood, hnames⟩ := ih hrest
        refine ⟨line :: before, wrong, after, rfl, ?_, ?_⟩
        · exact List.forall_mem_cons.2 ⟨⟨word, parseLine_eq_ok_iff.1 hline⟩, hgood⟩
        · rw [List.length_cons, Nat.add_comm before.length, ← Nat.add_assoc]
          exact hnames

end

/-! ### The lines of a text -/

/-- The lines of a text: what stands before each end of a line, `\n` or `\r\n`, and what follows
the last one, if anything does. -/
def textLines : List Char → List (List Char)
  | [] => []
  | '\n' :: cs => [] :: textLines cs
  | '\r' :: '\n' :: cs => [] :: textLines cs
  | c :: cs =>
    match textLines cs with
    | [] => [[c]]
    | line :: rest => (c :: line) :: rest

/-- A character that ends no line stands in the first line. -/
theorem textLines_cons {c : Char} {cs : List Char} (hnewline : c ≠ '\n')
    (hreturn : ∀ rest, c = '\r' → cs ≠ '\n' :: rest) :
    textLines (c :: cs) =
      match textLines cs with
      | [] => [[c]]
      | line :: rest => (c :: line) :: rest := by
  rw [textLines] <;> assumption

/-- Lines that differ at most by a carriage return at the end. -/
def Same (line line' : List Char) : Prop :=
  line = line' ∨ line = line' ++ ['\r']

theorem Same.cons {c : Char} {line line' : List Char} (h : Same line line') :
    Same (c :: line) (c :: line') := by
  rcases h with rfl | rfl
  · exact .inl rfl
  · exact .inr rfl

/-- A character may be put in front of the first of some lines and of the same lines. -/
theorem forall₂_same_push {c : Char} {line : List Char} {rest ls : List (List Char)}
    (h : List.Forall₂ Same ls (line :: rest)) :
    List.Forall₂ Same (ls.modifyHead (c :: ·)) ((c :: line) :: rest) := by
  cases h with
  | cons hline hrest => exact .cons hline.cons hrest

theorem splitOn_cons {c : Char} {cs : List Char} (h : c ≠ '\n') :
    (c :: cs).splitOn '\n' = (cs.splitOn '\n').modifyHead (c :: ·) := by
  rw [List.splitOn_cons_eq_if_modifyHead, if_neg (by simpa using h)]

/-- What stands between the line ends are the lines of the text, and perhaps an empty one after
the last end. -/
theorem lines_same (cs : List Char) :
    List.Forall₂ Same (lines cs) (textLines cs) ∨
      List.Forall₂ Same (lines cs) (textLines cs ++ [[]]) := by
  unfold lines
  induction cs using textLines.induct with
  | case1 => exact .inr (.cons (.inl rfl) .nil)
  | case2 cs ih =>
    rw [List.splitOn_cons_eq_if_modifyHead, textLines]
    exact ih.imp (.cons (.inl rfl)) (.cons (.inl rfl))
  | case3 cs ih =>
    rw [List.splitOn_cons_eq_if_modifyHead, List.splitOn_cons_eq_if_modifyHead, textLines]
    exact ih.imp (.cons (.inr rfl)) (.cons (.inr rfl))
  | case4 c cs hnewline hreturn hlines ih =>
    rw [splitOn_cons hnewline, textLines_cons hnewline hreturn, hlines]
    rw [hlines] at ih
    -- the text has no line yet, so what is split is the empty line after the last end
    rcases ih with h | h
    · exact absurd (List.forall₂_nil_right_iff.1 h) (List.splitOn_ne_nil _ _)
    · exact .inl (forall₂_same_push h)
  | case5 c cs hnewline hreturn line rest hlines ih =>
    rw [splitOn_cons hnewline, textLines_cons hnewline hreturn, hlines]
    rw [hlines] at ih
    exact ih.imp forall₂_same_push forall₂_same_push

section

variable {line line' cs : List Char} {word : Option Word} {ws : List Word}

/-- A line is of the grammar with or without a carriage return at its end. -/
theorem Same.content_eq (h : Same line line') : content line = content line' := by
  rcases h with rfl | rfl
  · rfl
  · exact holds_iff.1 (holds_iff.2 rfl : Holds line' (content line')).append_return

theorem parseLines_congr {ls ls' : List (List Char)} (h : List.Forall₂ Same ls ls') :
    ∀ number, parseLines number ls = parseLines number ls' := by
  induction h with
  | nil => exact fun _ => rfl
  | cons hline _ ih =>
    intro number
    rw [parseLines, parseLines, parseLine, parseLine, hline.content_eq, ih]

/-- An empty line at the end does not count. -/
theorem parseLines_append_empty (ls : List (List Char)) :
    ∀ number, parseLines number (ls ++ [[]]) = parseLines number ls := by
  induction ls with
  | nil => exact fun _ => rfl
  | cons line rest ih =>
    intro number
    rw [List.cons_append, parseLines, parseLines, ih]

/-- **The lines that are read** are the lines of the text. -/
theorem parse_eq (s : String) : parse s = parseLines 1 (textLines s.toList) := by
  rw [parse]
  rcases lines_same s.toList with h | h
  · exact parseLines_congr h 1
  · rw [parseLines_congr h, parseLines_append_empty]

/-! ### Ways to write a listing -/

/-- The ways to write a line. An empty one may have blanks and a comment. A word is written with
blanks around it, a mark, a plus sign, zeros, and underscores anywhere after the mark, its digits in
either case, and a comment behind it; all of these may be left out but the digits. -/
inductive Written : List Char → Option Word → Prop
  | empty {blanks comment : List Char} (hblanks : Blank blanks) (hcomment : Comment comment) :
      Written (blanks ++ comment) none
  | word {before mark sign zeros row body after comment : List Char} {w : Word}
      (hbefore : Blank before) (hmark : Mark mark) (hsign : sign = [] ∨ sign = ['+'])
      (hzeros : ∀ c ∈ zeros, c = '0') (hrow : row.map Char.toLower = Nat.toDigits 16 w.toNat)
      (hbody : body.filter (· ≠ '_') = sign ++ (zeros ++ row)) (hafter : Blank after)
      (hcomment : Comment comment) :
      Written (before ++ (mark ++ body) ++ after ++ comment) (some w)

/-- The texts in which words are written, in their order, on lines of their own. -/
inductive Writes : List Char → List Word → Prop
  | last {line : List Char} {word : Option Word} (hline : Written line word) (hend : '\n' ∉ line) :
      Writes line word.toList
  | line {line ending cs : List Char} {word : Option Word} {ws : List Word}
      (hline : Written line word) (hend : '\n' ∉ line)
      (hending : ending = ['\n'] ∨ ending = ['\r', '\n']) (hrest : Writes cs ws) :
      Writes (line ++ ending ++ cs) (word.toList ++ ws)

/-- A word that is written is a line of the grammar, however it is written. -/
theorem Written.isLine (h : Written line word) : Line line word := by
  cases h with
  | @empty blanks comment hblanks hcomment =>
    exact .empty ⟨blanks, [], comment, by simp, hblanks, nofun, hcomment, nofun, nofun, nofun⟩
  | @word _ mark _ zeros _ body _ _ w hbefore hmark hsign hzeros hrow hbody hafter hcomment =>
    rw [List.eq_replicate_of_mem hzeros] at hbody
    have hspells := Numeral.spells_toDigits hsign hrow zeros.length
    have hword : Spells (mark ++ body) w := ⟨mark, body, rfl, hmark, hbody ▸ hspells⟩
    exact .word (holds_of_spells hbefore hafter hcomment hword) hword

theorem Line.append_return (h : Line line word) : Line (line ++ ['\r']) word := by
  cases h with
  | empty h => exact .empty h.append_return
  | word h hword => exact .word h.append_return hword

/-- **Words that are written are read back**, however they are written. -/
theorem parseLines_of_writes (h : Writes cs ws) :
    ∀ number, parseLines number (lines cs) = .ok ws := by
  unfold lines
  induction h with
  | @last line word hline hend =>
    intro number
    rw [List.splitOn_eq_singleton hend, parseLines_cons hline.isLine rfl, List.append_nil]
  | @line line ending cs word ws hline hend hending hrest ih =>
    intro number
    rw [List.append_assoc]
    rcases hending with rfl | rfl
    · have hsplit : (line ++ (['\n'] ++ cs)).splitOn '\n' = line :: cs.splitOn '\n' :=
        List.splitOn_append_cons_self_of_not_mem hend cs
      rw [hsplit, parseLines_cons hline.isLine (ih _)]
    · have hreturn : '\n' ∉ line ++ ['\r'] := by simpa using hend
      have hsplit : (line ++ (['\r', '\n'] ++ cs)).splitOn '\n' =
          (line ++ ['\r']) :: cs.splitOn '\n' := by
        rw [← List.splitOn_append_cons_self_of_not_mem hreturn, List.append_assoc]
        rfl
      rw [hsplit, parseLines_cons hline.isLine.append_return (ih _)]

/-- **Listings are read by their grammar, and by nothing else.** A listing is accepted when every
line of it is of the grammar, and the words are then those of the lines in their order. The error
for another listing names the first line that is wrong. So words that are written on lines are read
back, whatever blanks, comments, empty lines, marks, signs, zeros, underscores and cases of digits
they are written with. -/
theorem parse_exact (s : String) :
    ((∃ ws, parse s = .ok ws) ↔ ∀ line ∈ textLines s.toList, ∃ word, Line line word) ∧
      (∀ ws, parse s = .ok ws ↔
        ∃ words, List.Forall₂ Line (textLines s.toList) words ∧ ws = words.reduceOption) ∧
      (∀ e, parse s = .error e → Names 1 (textLines s.toList) e) ∧
      ∀ ws, Writes s.toList ws → parse s = .ok ws := by
  refine ⟨?_, ?_, ?_, fun ws h => parseLines_of_writes h 1⟩
  · rw [parse_eq, ← exists_forall₂_iff]
    constructor
    · rintro ⟨ws, h⟩
      obtain ⟨words, hwords, -⟩ := parseLines_eq_ok_iff.1 h
      exact ⟨words, hwords⟩
    · rintro ⟨words, hwords⟩
      exact ⟨_, parseLines_eq_ok_iff.2 ⟨words, hwords, rfl⟩⟩
  · intro ws
    rw [parse_eq, parseLines_eq_ok_iff]
  · intro e h
    rw [parse_eq] at h
    exact parseLines_eq_error h

/-- Words are read back from lines of several kinds, and a wrong line is named by its number. -/
theorem parse_exact_lines :
    Writes "# demo\r\n\t0X2108_000A # ten\n +0000_003f\n".toList [0x2108000a#32, 0x3f#32] ∧
      parse "# demo\r\n\t0X2108_000A # ten\n +0000_003f\n" =
        .ok [0x2108000a#32, 0x3f#32] ∧
      parse "3f\n\n harddrop # x\n1g" = .error ⟨3, "harddrop", .invalidDigit⟩ ∧
      Names 1 (textLines "3f\n\n harddrop # x\n1g".toList) ⟨3, "harddrop", .invalidDigit⟩ := by
  have hdemo : Written "# demo".toList none :=
    .empty (show Blank [] from nofun) (.inr ⟨" demo".toList, rfl⟩)
  have hfirst : Written "\t0X2108_000A # ten".toList (some 0x2108000a#32) :=
    .word (show Blank ['\t'] by decide) (.inr (.inr rfl)) (.inl rfl)
      (show ∀ c ∈ [], c = '0' from nofun)
      (show "2108000A".toList.map Char.toLower = _ by decide)
      (show "2108_000A".toList.filter (· ≠ '_') = _ from rfl) (show Blank [' '] by decide)
      (.inr ⟨" ten".toList, rfl⟩)
  have hsecond : Written " +0000_003f".toList (some 0x3f#32) :=
    .word (show Blank [' '] by decide) (.inl rfl) (.inr rfl)
      (show ∀ c ∈ "000000".toList, c = '0' by simp)
      (show "3f".toList.map Char.toLower = _ by decide)
      (show "+0000_003f".toList.filter (· ≠ '_') = _ from rfl) (show Blank [] from nofun) (.inl rfl)
  have hlast : Written [] none := .empty (show Blank [] from nofun) (.inl rfl)
  have hwrites : Writes "# demo\r\n\t0X2108_000A # ten\n +0000_003f\n".toList
      [0x2108000a#32, 0x3f#32] :=
    .line hdemo (by decide) (.inr rfl) (.line hfirst (by decide) (.inl rfl)
      (.line hsecond (by decide) (.inl rfl) (.last hlast (by decide))))
  have herror : parse "3f\n\n harddrop # x\n1g" = .error ⟨3, "harddrop", .invalidDigit⟩ := by
    decide
  exact ⟨hwrites, (parse_exact _).2.2.2 _ hwrites, herror, (parse_exact _).2.2.1 _ herror⟩

end

end Listing

end TetrisMachine
