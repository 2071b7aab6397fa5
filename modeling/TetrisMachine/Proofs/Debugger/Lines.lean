import TetrisMachine.Debugger.Command
import TetrisMachine.Proofs.Text.Numerals

/-!
# What lines of the debugger ask for

A line asks for something if its first word abbreviates a command and the other words are the
arguments that the command takes. A blank line, one whose quotes are not closed, one whose first
word abbreviates no command, and one with other arguments ask for nothing.

* `Text.Words.split_of_spaced`: the words of a line in which all characters stand for themselves.
* `Command.ofWord?_eq_some_iff`: the command that a word abbreviates.
* `Request.ofCommand_eq_ok_iff`: what a command with arguments asks for.
* `requested_eq_some_iff_asks`: what a line asks for.
* `Classified`, `classified`: what lines ask for, and which ask for nothing.
-/

namespace TetrisMachine

/-! ### Words -/

namespace Text.Words

/-- Whether a character stands for itself in a word: it is no blank, quote, backslash or
backspace, and begins no comment. -/
def isOrdinary (c : Char) : Bool :=
  !isBlank c && c ≠ '\'' && c ≠ '"' && c ≠ '\\' && c ≠ '#' && c ≠ '\x08'

/-- The line is these words, of ordinary characters, with separators around them. -/
inductive Spaced : List Char → List String → Prop
  | nil : Spaced [] []
  | separator {c : Char} {cs : List Char} {words : List String} :
    isSeparator c = true → Spaced cs words → Spaced (c :: cs) words
  | last {w : List Char} : w ≠ [] → (∀ c ∈ w, isOrdinary c = true) → Spaced w [String.ofList w]
  | word {w cs : List Char} {c : Char} {words : List String} :
    w ≠ [] → (∀ c ∈ w, isOrdinary c = true) → isSeparator c = true → Spaced cs words →
      Spaced (w ++ c :: cs) (String.ofList w :: words)

variable {c : Char} {v w cs : List Char} {word : String} {words : List String}

theorem isBlank_of_isSeparator (h : isSeparator c = true) : isBlank c = true := by
  simp only [isSeparator, decide_eq_true_eq] at h
  rcases h with rfl | rfl | rfl <;> decide

theorem isBlank_of_isOrdinary (h : isOrdinary c = true) : isBlank c = false := by
  simp only [isOrdinary, Bool.and_eq_true, Bool.not_eq_true'] at h
  exact h.1.1.1.1.1

/-- A separator is passed over, and ends a word. -/
theorem splitFrom_separator (h : isSeparator c = true) :
    splitFrom .betweenWords v (c :: cs) = splitFrom .betweenWords [] cs ∧
      splitFrom .word w (c :: cs) =
        (splitFrom .betweenWords [] cs).map (String.ofList w.reverse :: ·) := by
  simp only [isSeparator, decide_eq_true_eq] at h
  rcases h with rfl | rfl | rfl <;> simp [splitFrom, isSeparator]

/-- An ordinary character begins a word, or goes on with one. -/
theorem splitFrom_ordinary (h : isOrdinary c = true) :
    splitFrom .betweenWords v (c :: cs) = splitFrom .word [c] cs ∧
      splitFrom .word w (c :: cs) = splitFrom .word (c :: w) cs := by
  have hsep : isSeparator c = false := by
    rw [Bool.eq_false_iff]
    intro hsep
    have hblank := isBlank_of_isOrdinary h
    rw [isBlank_of_isSeparator hsep] at hblank
    cases hblank
  simp only [isOrdinary, Bool.and_eq_true, decide_eq_true_eq, ne_eq] at h
  obtain ⟨⟨⟨⟨⟨-, hsingle⟩, hdouble⟩, hbackslash⟩, hhash⟩, -⟩ := h
  constructor
  · rw [splitFrom]
    · simp [hsingle, hdouble, hhash, hsep]
    all_goals simp [hbackslash]
  · rw [splitFrom]
    · simp [hsingle, hdouble, hsep]
    all_goals simp [hbackslash]

/-- A word is read to its end. -/
theorem splitFrom_append (h : ∀ c ∈ w, isOrdinary c = true) (v cs : List Char) :
    splitFrom .word v (w ++ cs) = splitFrom .word (w.reverse ++ v) cs := by
  induction w generalizing v with
  | nil => rfl
  | cons c w ih =>
    obtain ⟨hc, hw⟩ := List.forall_mem_cons.1 h
    rw [List.cons_append, (splitFrom_ordinary (v := []) hc).2, ih hw, List.reverse_cons,
      List.append_assoc]
    rfl

theorem split_append (hne : w ≠ []) (h : ∀ c ∈ w, isOrdinary c = true) (cs : List Char) :
    split (w ++ cs) = splitFrom .word w.reverse cs := by
  obtain ⟨c, w, rfl⟩ := List.exists_cons_of_ne_nil hne
  obtain ⟨hc, hw⟩ := List.forall_mem_cons.1 h
  rw [split, List.cons_append, (splitFrom_ordinary (w := []) hc).1, splitFrom_append hw,
    List.reverse_cons]

/-- **Words with separators around them are the words of the line.** -/
theorem split_of_spaced (h : Spaced cs words) : split cs = some words := by
  induction h with
  | nil => rfl
  | separator hc _ ih => rw [split, (splitFrom_separator (w := []) hc).1, ← split, ih]
  | @last w hne hw =>
    have hsplit := split_append hne hw []
    rw [List.append_nil] at hsplit
    rw [hsplit, splitFrom, List.reverse_reverse]
  | @word w cs c words hne hw hc _ ih =>
    rw [split_append hne hw, (splitFrom_separator (v := []) hc).2, ← split, ih,
      List.reverse_reverse, Option.map_some]

theorem mem_of_spaced (h : Spaced cs words) :
    ∀ c ∈ cs, isOrdinary c = true ∨ isSeparator c = true := by
  induction h with
  | nil => exact fun _ hc => absurd hc List.not_mem_nil
  | separator hc _ ih => exact List.forall_mem_cons.2 ⟨.inr hc, ih⟩
  | last _ hw => exact fun c hc => .inl (hw c hc)
  | word _ hw hc _ ih =>
    have hrest := List.forall_mem_cons.2 ⟨.inr hc, ih⟩
    exact List.forall_mem_append.2 ⟨fun c hc => .inl (hw c hc), hrest⟩

theorem not_blank_of_ordinary (hne : w ≠ []) (h : ∀ c ∈ w, isOrdinary c = true) :
    ¬ ∀ c ∈ w, isBlank c = true := by
  intro hblank
  obtain ⟨c, hc⟩ := List.exists_mem_of_ne_nil w hne
  have hordinary := isBlank_of_isOrdinary (h c hc)
  rw [hblank c hc] at hordinary
  cases hordinary

/-- A line with a word is not blank. -/
theorem not_blank_of_spaced (h : Spaced cs (word :: words)) : ¬ ∀ c ∈ cs, isBlank c = true := by
  generalize hlist : word :: words = list at h
  induction h with
  | nil => cases hlist
  | separator _ _ ih => exact fun hblank => ih hlist (List.forall_mem_cons.1 hblank).2
  | last hne hw => exact not_blank_of_ordinary hne hw
  | word hne hw =>
    exact fun hblank => not_blank_of_ordinary hne hw (List.forall_mem_append.1 hblank).1

end Text.Words

/-! ### Commands -/

namespace Debugger

namespace Command

/-- The word is the name of the command, or it is no name but begins this one and no other. -/
def Abbreviates (word : String) (c : Command) : Prop :=
  word = c.name ∨ (∀ c' : Command, word ≠ c'.name) ∧ word ≠ "" ∧
    ∀ c' : Command, word.toList <+: c'.name.toList ↔ c' = c

variable {word : String} {c : Command}

theorem mem_all (c : Command) : c ∈ all := by
  cases c <;> decide

theorem find?_name (c : Command) : all.find? (·.name = c.name) = some c := by
  cases c <;> rfl

/-- One command alone passes a test if the commands that pass are a list of it. -/
theorem filter_all_eq_singleton_iff {p : Command → Bool} :
    all.filter p = [c] ↔ ∀ c', p c' = true ↔ c' = c := by
  constructor
  · intro h c'
    have hmem : c' ∈ all.filter p ↔ c' ∈ [c] := by rw [h]
    rwa [List.mem_filter, and_iff_right (mem_all c'), List.mem_singleton] at hmem
  · intro h
    have hp : p = (decide <| · = c) := by
      funext c'
      rw [Bool.eq_iff_iff, h, decide_eq_true_iff]
    rw [hp]
    cases c <;> rfl

/-- **The command that a word abbreviates.** -/
theorem ofWord?_eq_some_iff : ofWord? word = some c ↔ Abbreviates word c := by
  unfold Abbreviates
  by_cases hname : ∃ c' : Command, word = c'.name
  · obtain ⟨c', rfl⟩ := hname
    have hnone : ¬ ∀ c'' : Command, c'.name ≠ c''.name := fun h => h c' rfl
    rw [ofWord?, find?_name, Option.some_or, Option.some_inj]
    constructor
    · rintro rfl
      exact .inl rfl
    · rintro (h | ⟨h, -⟩)
      · have hsame := find?_name c
        rw [← h, find?_name] at hsame
        exact Option.some.inj hsame
      · exact absurd h hnone
  · have hne (c' : Command) : word ≠ c'.name := fun h => hname ⟨c', h⟩
    have hfind : all.find? (·.name = word) = none := by
      rw [List.find?_eq_none]
      intro c' _ h
      exact hne c' (of_decide_eq_true h).symm
    rw [or_iff_right (hne c), and_iff_right hne, ofWord?, hfind, Option.none_or, candidates]
    by_cases hempty : word = ""
    · simp [hempty]
    · have hfilter := filter_all_eq_singleton_iff (c := c)
        (p := fun c' => word.toList.isPrefixOf c'.name.toList)
      simp only [List.isPrefixOf_iff_prefix] at hfilter
      rw [and_iff_right hempty, ← hfilter, if_neg (by simpa using hempty)]
      split
      · next c' h => simp [h]
      · next h => exact iff_of_false nofun fun heq => h c heq

/-- A word abbreviates one command at most. -/
theorem Abbreviates.unique {c' : Command} (h : Abbreviates word c) (h' : Abbreviates word c') :
    c' = c := by
  rw [← ofWord?_eq_some_iff] at h h'
  exact Option.some.inj (h'.symm.trans h)

end Command

namespace Request

open Text.Numeral

/-- What a command with arguments asks for. -/
inductive Asks : Command → List String → Request → Prop
  | resume : Asks .resume [] .resume
  | step : Asks .step [] .step
  /-- The number is decimal and has 64 bits. -/
  | backtrace {text : String} {count : Nat} : Spells 10 text.toList count → count < 2 ^ 64 →
    Asks .backtrace [text] (.backtrace count)
  | registers : Asks .registers [] .registers
  | board : Asks .board [] .board
  | peek (address : String) : Asks .peek [address] (.peek address)
  | halt : Asks .halt [] .halt
  /-- Arguments of `help` and `quit` are not looked at. -/
  | help (arguments : List String) : Asks .help arguments .help
  | quit (arguments : List String) : Asks .quit arguments .quit

variable {c : Command} {arguments : List String} {request : Request}

/-- **What a command with arguments asks for**, if it takes them. -/
theorem ofCommand_eq_ok_iff : ofCommand c arguments = .ok request ↔ Asks c arguments request := by
  have hread {count : String} {n : Nat} :
      read 10 0x10000000000000000 count.toList = .ok n ↔
        Spells 10 count.toList n ∧ n < 2 ^ 64 :=
    read_eq_ok_iff (by decide) (by decide)
  constructor
  · intro h
    unfold ofCommand at h
    split at h
    case h_5 count =>
      split at h
      · next n hn =>
        cases h
        obtain ⟨hspells, hlt⟩ := hread.1 hn
        exact .backtrace hspells hlt
      · cases h
    all_goals cases h
    all_goals constructor
  · intro h
    cases h with
    | backtrace hspells hlt => rw [ofCommand, hread.2 ⟨hspells, hlt⟩]
    | _ => rfl

/-- **The commands that change something take no arguments.** -/
theorem ofCommand_eq_ok_iff_of_bare (c : Command) (arguments : List String) :
    (ofCommand c arguments = .ok .step ↔ c = .step ∧ arguments = []) ∧
    (ofCommand c arguments = .ok .resume ↔ c = .resume ∧ arguments = []) ∧
    (ofCommand c arguments = .ok .halt ↔ c = .halt ∧ arguments = []) := by
  simp only [ofCommand_eq_ok_iff]
  refine ⟨⟨?_, ?_⟩, ⟨?_, ?_⟩, ⟨?_, ?_⟩⟩
  · rintro ⟨⟩
    exact ⟨rfl, rfl⟩
  · rintro ⟨rfl, rfl⟩
    exact .step
  · rintro ⟨⟩
    exact ⟨rfl, rfl⟩
  · rintro ⟨rfl, rfl⟩
    exact .resume
  · rintro ⟨⟩
    exact ⟨rfl, rfl⟩
  · rintro ⟨rfl, rfl⟩
    exact .halt

end Request

/-! ### Lines -/

/-- What a line asks for. A blank line and a line that is wrong ask for nothing. -/
def requested (line : String) : Option Request :=
  match Request.ofLine line.toList with
  | .ok request => request
  | .error _ => none

/-- The words of a line, none if it is blank. Missing if a quote is not closed. -/
def lineWords (line : String) : Option (List String) :=
  let typed := Text.applyBackspaces (dropReturn line.toList)
  if typed.all Text.isBlank then some [] else Text.Words.split typed

variable {line word : String} {request : Request} {arguments : List String} {c : Command}

theorem requested_eq_some_iff :
    requested line = some request ↔ Request.ofLine line.toList = .ok (some request) := by
  unfold requested
  split
  · next h => rw [h, Except.ok.injEq]
  · next h => simp [h]

/-- **What a line asks for**: its first word abbreviates a command that takes the others. -/
theorem requested_eq_some_iff_asks : requested line = some request ↔
    ∃ word arguments c, lineWords line = some (word :: arguments) ∧
      Command.Abbreviates word c ∧ Request.Asks c arguments request := by
  simp only [← Request.ofCommand_eq_ok_iff, ← Command.ofWord?_eq_some_iff]
  rw [requested_eq_some_iff, Request.ofLine, lineWords]
  split
  · simp
  · cases Text.Words.split (Text.applyBackspaces (dropReturn line.toList)) with
    | none => simp
    | some words =>
      cases words with
      | nil => simp
      | cons word arguments =>
        cases hcommand : Command.ofWord? word with
        | none => simp [hcommand]
        | some c =>
          cases hrequest : Request.ofCommand c arguments <;>
            simp [hcommand, hrequest, Except.map]

open Text.Words in
/-- The words of a line in which all characters stand for themselves. -/
theorem lineWords_of_spaced (h : Spaced line.toList (word :: arguments)) :
    lineWords line = some (word :: arguments) := by
  have hreturn : dropReturn line.toList = line.toList := by
    refine if_neg fun hlast => ?_
    rcases mem_of_spaced h _ (List.mem_of_getLast? hlast) with hr | hr <;> cases hr
  have htyped : Text.applyBackspaces line.toList = line.toList := by
    refine Text.applyBackspaces_of_notMem fun hmem => ?_
    rcases mem_of_spaced h _ hmem with hr | hr <;> cases hr
  have hblank : ¬ line.toList.all Text.isBlank = true := by
    rw [List.all_eq_true]
    exact not_blank_of_spaced h
  rw [lineWords, hreturn, htyped]
  exact (if_neg hblank).trans (split_of_spaced h)

/-- A request of a command without arguments is on a line of one word. -/
theorem requested_eq_some_iff_of_bare
    (h : ∀ c' arguments, Request.ofCommand c' arguments = .ok request ↔ c' = c ∧ arguments = []) :
    requested line = some request ↔
      ∃ word, lineWords line = some [word] ∧ Command.Abbreviates word c := by
  simp only [requested_eq_some_iff_asks, ← Request.ofCommand_eq_ok_iff, h]
  constructor
  · rintro ⟨word, _, _, hwords, hword, rfl, rfl⟩
    exact ⟨word, hwords, hword⟩
  · rintro ⟨word, hwords, hword⟩
    exact ⟨word, [], c, hwords, hword, rfl, rfl⟩

/-- A line asks for nothing if its words are not those of a command and its arguments. -/
theorem requested_eq_none (h : ∀ word arguments c, lineWords line = some (word :: arguments) →
    Command.Abbreviates word c → ∀ request, ¬ Request.Asks c arguments request) :
    requested line = none := by
  rw [Option.eq_none_iff_forall_ne_some]
  intro request hrequest
  obtain ⟨word, arguments, c, hwords, hword, hasks⟩ := requested_eq_some_iff_asks.1 hrequest
  exact h word arguments c hwords hword request hasks

/-- A blank line asks for nothing. -/
theorem requested_of_blank (h : ∀ c ∈ line.toList, Text.isBlank c) : requested line = none := by
  have hblank : ∀ c ∈ dropReturn line.toList, Text.isBlank c := by
    intro c hc
    unfold dropReturn at hc
    split at hc
    · exact h c ((List.dropLast_sublist _).subset hc)
    · exact h c hc
  -- a backspace is not blank
  have htyped : Text.applyBackspaces (dropReturn line.toList) = dropReturn line.toList :=
    Text.applyBackspaces_of_notMem fun hmem => absurd (hblank _ hmem) (by decide)
  have hwords : lineWords line = some [] := by
    rw [lineWords, htyped]
    exact if_pos (List.all_eq_true.2 hblank)
  refine requested_eq_none fun word arguments c hline => ?_
  rw [hwords] at hline
  cases hline

/-- A line whose first word abbreviates no command asks for nothing. -/
theorem requested_of_unknown (hwords : lineWords line = some (word :: arguments))
    (h : ∀ c, ¬ Command.Abbreviates word c) : requested line = none := by
  refine requested_eq_none fun word' arguments' c hwords' hword => ?_
  cases hwords.symm.trans hwords'
  exact absurd hword (h c)

/-- A command with arguments that it does not take asks for nothing. -/
theorem requested_of_refused (hwords : lineWords line = some (word :: arguments))
    (hword : Command.Abbreviates word c) (h : ∀ request, ¬ Request.Asks c arguments request) :
    requested line = none := by
  refine requested_eq_none fun word' arguments' c' hwords' hword' => ?_
  cases hwords.symm.trans hwords'
  cases hword.unique hword'
  exact h

open Text.Words in
/-- What a line asks for, by its words. -/
structure Classified (line : String) : Prop where
  /-- The first word abbreviates a command that takes the others. -/
  asks : ∀ request, requested line = some request ↔
    ∃ word arguments c, lineWords line = some (word :: arguments) ∧
      Command.Abbreviates word c ∧ Request.Asks c arguments request
  /-- What changes something is asked for by one word alone. -/
  effects : (requested line = some .step ↔
      ∃ word, lineWords line = some [word] ∧ Command.Abbreviates word .step) ∧
    (requested line = some .resume ↔
      ∃ word, lineWords line = some [word] ∧ Command.Abbreviates word .resume) ∧
    (requested line = some .halt ↔
      ∃ word, lineWords line = some [word] ∧ Command.Abbreviates word .halt)
  /-- Words with separators around them are the words of the line. -/
  words : ∀ word arguments, Spaced line.toList (word :: arguments) →
    lineWords line = some (word :: arguments)
  blank : (∀ c ∈ line.toList, Text.isBlank c) → requested line = none
  unknown : ∀ word arguments, lineWords line = some (word :: arguments) →
    (∀ c, ¬ Command.Abbreviates word c) → requested line = none
  refused : ∀ word arguments c, lineWords line = some (word :: arguments) →
    Command.Abbreviates word c → (∀ request, ¬ Request.Asks c arguments request) →
      requested line = none

/-- **Every line is classified by its words.** -/
theorem classified (line : String) : Classified line where
  asks _ := requested_eq_some_iff_asks
  effects :=
    ⟨requested_eq_some_iff_of_bare fun c arguments =>
        (Request.ofCommand_eq_ok_iff_of_bare c arguments).1,
      requested_eq_some_iff_of_bare fun c arguments =>
        (Request.ofCommand_eq_ok_iff_of_bare c arguments).2.1,
      requested_eq_some_iff_of_bare fun c arguments =>
        (Request.ofCommand_eq_ok_iff_of_bare c arguments).2.2⟩
  words _ _ := lineWords_of_spaced
  blank := requested_of_blank
  unknown _ _ := requested_of_unknown
  refused _ _ _ := requested_of_refused

end Debugger

end TetrisMachine
