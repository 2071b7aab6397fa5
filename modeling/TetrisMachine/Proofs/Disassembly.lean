import Mathlib
import TetrisMachine.Disassembly
import TetrisMachine.Proofs.InstructionSet.RoundTrip
import TetrisMachine.Proofs.Text.Numerals

/-!
# Disassembly loses nothing

The line of a decoded word is its mnemonic and a token for each field of the template: the name
of a register, a decimal number, or a hexadecimal address. The name and the tokens have none of
the characters that stand between them, so the line can be taken apart again, and a token tells
what the field holds.

* `Field.Shows`: the tokens that show a field of a word.
* `OperandFormat.pieces_line`: a line is taken apart into its name and its tokens.
* `Instruction.render_lossless`: the word can be recovered from its line.
-/

namespace TetrisMachine

open Catalog Text

/-! ### Tokens -/

/-- What is written for an operand. -/
inductive Token where
  /-- The name of a register. -/
  | register (r : Register)
  /-- A number in decimal digits. -/
  | number (n : Int)
  /-- An address in hexadecimal digits. -/
  | address (n : Nat)

def Token.text : Token → String
  | register r => r.name
  | number n => toString n
  | address n => "0x" ++ lowerHex 1 n

/-- The token shows what the word holds in the field: a field of 5 bits names a register, one of 16
is a signed number, and one of 26 is the address of four times its value. -/
def Field.Shows (f : Field) (w : Word) : Token → Prop
  | .register r => f.width = 5 ∧ f.extract w = r.toWord
  | .number n => f.width = 16 ∧ n = (f.extract w).toInt
  | .address n => f.width = 26 ∧ n = 4 * (f.extract w).toNat

section

variable {f : Field} {w w' : Word} {t t' : Token}

/-- Every field of an instruction can be shown. -/
theorem Field.exists_shows {m : Mnemonic} (h : f ∈ m.template.fields) (w : Word) :
    ∃ t, f.Shows w t := by
  rcases Mnemonic.width_of_mem_fields h with hw | hw | hw
  · have hlt : (f.extract w).toNat < 34 := by
      rw [toNat_extract (by omega) (by omega), hw]
      exact Nat.lt_trans (Nat.mod_lt _ (by decide)) (by decide)
    refine ⟨.register ⟨(f.extract w).toNat, hlt⟩, hw, BitVec.eq_of_toNat_eq ?_⟩
    rw [Register.toNat_toWord]
  · exact ⟨.number _, hw, rfl⟩
  · exact ⟨.address _, hw, rfl⟩

theorem Register.name_inj {r r' : Register} (h : r.name = r'.name) : r = r' := by
  have hall : ∀ i j : Fin 34, names[i] = names[j] → i = j := by decide +kernel
  exact congrArg Register.mk (hall r.index r'.index h)

/-- **A token tells what the field holds.** -/
theorem Field.Shows.extract_eq (h : f.Shows w t) (h' : f.Shows w' t') (htext : t.text = t'.text) :
    f.extract w = f.extract w' := by
  -- the width of the field decides which kind of token shows it
  cases t with
  | register r =>
    cases t' with
    | register r' => rw [h.2, h'.2, Register.name_inj htext]
    | number | address => exact absurd (h.1.symm.trans h'.1) (by decide)
  | number n =>
    cases t' with
    | number n' =>
      simp only [Token.text, Int.toString_eq_repr] at htext
      have hn := Int.repr_inj.1 htext
      rw [h.2, h'.2] at hn
      exact BitVec.eq_of_toInt_eq hn
    | register | address => exact absurd (h.1.symm.trans h'.1) (by decide)
  | address n =>
    cases t' with
    | address n' =>
      have hn : n = n' := Numeral.eq_of_lowerHex_eq ((String.append_right_inj _).1 htext)
      rw [h.2, h'.2] at hn
      exact BitVec.eq_of_toNat_eq (by omega)
    | register | number => exact absurd (h.1.symm.trans h'.1) (by decide)

end

/-! ### Taking a text apart -/

namespace Text

/-- The characters of names and tokens. -/
def isPlain (c : Char) : Bool :=
  c.isAlphanum || c == '$' || c == '-'

/-- The characters between names and tokens. -/
def separators : List Char :=
  [' ', ',', '(', ')']

/-- The text is a name or a token: there is a character in it, and all are of names and tokens. -/
def Plain (s : String) : Prop :=
  s.toList ≠ [] ∧ ∀ c ∈ s.toList, isPlain c

/-- The pieces of a text: what stands between other characters than those of names and tokens. -/
def pieces (cs : List Char) : List (List Char) :=
  (cs.splitOnP (!isPlain ·)).filter (· ≠ [])

section

variable {c : Char} {cs cs' : List Char} {s s' : String} {texts : List String}

theorem Plain.pieces_eq (h : Plain s) : pieces s.toList = [s.toList] := by
  have hsplit : s.toList.splitOnP (!isPlain ·) = [s.toList] :=
    List.splitOnP_eq_singleton fun c hc => by simpa using h.2 c hc
  rw [pieces, hsplit, List.filter_cons_of_pos (by simpa using h.1), List.filter_nil]

theorem pieces_append (hc : isPlain c = false) :
    pieces (cs ++ c :: cs') = pieces cs ++ pieces cs' := by
  rw [pieces, List.splitOnP_append_cons _ _ (by simpa using hc), List.filter_append]
  rfl

theorem pieces_cons (hc : isPlain c = false) : pieces (c :: cs) = pieces cs := by
  have h : pieces ([] ++ c :: cs) = pieces [] ++ pieces cs := pieces_append hc
  exact h

/-- The texts of a list are taken apart at the commas. -/
theorem pieces_intercalate (h : ∀ s ∈ texts, Plain s) :
    pieces (", ".intercalate texts).toList = texts.map String.toList := by
  induction texts with
  | nil => rfl
  | cons s texts ih =>
    obtain ⟨hs, htexts⟩ := List.forall_mem_cons.1 h
    cases texts with
    | nil => rw [String.intercalate_singleton, hs.pieces_eq, List.map_singleton]
    | cons s' texts =>
      have htail : (", ".intercalate (s :: s' :: texts)).toList =
          s.toList ++ ',' :: ' ' :: (", ".intercalate (s' :: texts)).toList := by
        rw [String.intercalate_cons_cons, String.toList_append, String.toList_append,
          List.append_assoc]
        rfl
      rw [htail, pieces_append (by decide), pieces_cons (by decide), hs.pieces_eq, ih htexts]
      rfl

theorem Plain.append (h : Plain s) (h' : Plain s') : Plain (s ++ s') := by
  rw [Plain, String.toList_append]
  exact ⟨List.append_ne_nil_of_left_ne_nil h.1 _,
    fun c hc => (List.mem_append.1 hc).elim (h.2 c) (h'.2 c)⟩

/-- The text is made of names and tokens, and of what stands between them. -/
def Drawn (s : String) : Prop :=
  ∀ c ∈ s.toList, isPlain c ∨ c ∈ separators

theorem Plain.drawn (h : Plain s) : Drawn s :=
  fun c hc => .inl (h.2 c hc)

theorem Drawn.append (h : Drawn s) (h' : Drawn s') : Drawn (s ++ s') := by
  intro c hc
  rw [String.toList_append, List.mem_append] at hc
  exact hc.elim (h c) (h' c)

theorem drawn_intercalate (h : ∀ s ∈ texts, Plain s) : Drawn (", ".intercalate texts) := by
  have hcomma : Drawn ", " := by simp [Drawn, separators]
  induction texts with
  | nil => nofun
  | cons s texts ih =>
    obtain ⟨hs, htexts⟩ := List.forall_mem_cons.1 h
    cases texts with
    | nil =>
      rw [String.intercalate_singleton]
      exact hs.drawn
    | cons s' texts =>
      rw [String.intercalate_cons_cons]
      exact (hs.drawn.append hcomma).append (ih htexts)

/-! ### The characters of numbers -/

theorem isPlain_of_isDigit {d : Nat} (h : IsDigit c d) : isPlain c :=
  h.elim (p := (isPlain · = true)) (by decide)

theorem plain_repr (n : Nat) : Plain n.repr := by
  rw [Plain, Nat.toList_repr]
  refine ⟨Nat.toDigits_ne_nil, fun c hc => ?_⟩
  have hdigit := Nat.isDigit_of_mem_toDigits (by decide) (by decide) hc
  simp [isPlain, Char.isAlphanum, hdigit]

end

end Text

/-! ### Lines -/

/-- The line of a name and the texts of its operands. -/
def OperandFormat.line (format : OperandFormat) (name : String) (texts : List String) : String :=
  match format, texts with
  | .bare, _ => name
  | .offsetBase, [value, offset, base] =>
    name ++ " " ++ value ++ ", " ++ offset ++ "(" ++ base ++ ")"
  | _, texts => name ++ " " ++ ", ".intercalate texts

section

variable {format : OperandFormat} {name : String} {texts : List String}

/-- **A line is taken apart into its name and the texts of its operands.** -/
theorem OperandFormat.pieces_line (hname : Plain name)
    (htexts : ∀ s ∈ texts, Plain s) (hbare : format = .bare → texts = []) :
    pieces (format.line name texts).toList = (name :: texts).map String.toList := by
  unfold line
  split
  · rw [hbare rfl, hname.pieces_eq, List.map_singleton]
  · next value offset base =>
    obtain ⟨hvalue, hrest⟩ := List.forall_mem_cons.1 htexts
    obtain ⟨hoffset, hrest⟩ := List.forall_mem_cons.1 hrest
    have hbase : Plain base := hrest base (.head _)
    have hline : (name ++ " " ++ value ++ ", " ++ offset ++ "(" ++ base ++ ")").toList =
        name.toList ++ ' ' :: (value.toList ++ ',' :: ' ' :: (offset.toList ++
          '(' :: (base.toList ++ [')']))) := by
      simp
    rw [hline, pieces_append (by decide), pieces_append (by decide), pieces_cons (by decide),
      pieces_append (by decide), pieces_append (by decide), hname.pieces_eq, hvalue.pieces_eq,
      hoffset.pieces_eq, hbase.pieces_eq]
    rfl
  · have hline : (name ++ " " ++ ", ".intercalate texts).toList =
        name.toList ++ ' ' :: (", ".intercalate texts).toList := by
      simp only [String.toList_append, List.append_assoc]
      rfl
    rw [hline, pieces_append (by decide), hname.pieces_eq, pieces_intercalate htexts]
    rfl

theorem OperandFormat.drawn_line (hname : Plain name)
    (htexts : ∀ s ∈ texts, Plain s) : Drawn (format.line name texts) := by
  have hblank : Drawn " " := by simp [Drawn, separators]
  have hcomma : Drawn ", " := by simp [Drawn, separators]
  have hopen : Drawn "(" := by simp [Drawn, separators]
  have hclose : Drawn ")" := by simp [Drawn, separators]
  unfold line
  split
  · exact hname.drawn
  · obtain ⟨hvalue, hrest⟩ := List.forall_mem_cons.1 htexts
    obtain ⟨hoffset, hrest⟩ := List.forall_mem_cons.1 hrest
    have hbase := hrest _ (.head _)
    exact ((((((hname.drawn.append hblank).append hvalue.drawn).append hcomma).append
      hoffset.drawn).append hopen).append hbase.drawn).append hclose
  · exact (hname.drawn.append hblank).append (drawn_intercalate htexts)

end

/-! ### The texts of names and tokens -/

theorem Mnemonic.plain_name (m : Mnemonic) : Plain m.name := by
  cases m <;> simp [name, Plain, isPlain]

theorem Register.plain_name (r : Register) : Plain r.name := by
  obtain ⟨i⟩ := r
  fin_cases i <;> simp [name, names, Plain, isPlain]

theorem Token.plain_text (t : Token) : Plain t.text := by
  cases t with
  | register r => exact r.plain_name
  | number n =>
    simp only [text, Int.toString_eq_repr, Int.repr_eq_if]
    split
    · exact plain_repr _
    · exact Plain.append (by simp [Plain, isPlain]) (plain_repr _)
  | address n =>
    refine Plain.append (by simp [Plain, isPlain]) ?_
    obtain ⟨ds, hrow, -⟩ := Numeral.row_lowerHex 1 n
    refine ⟨(Numeral.spells_lowerHex 1 n).ne_nil, fun c hc => ?_⟩
    obtain ⟨d, hd⟩ := hrow.exists_isDigit hc
    exact isPlain_of_isDigit hd

theorem Token.plain_texts (ts : List Token) : ∀ s ∈ ts.map text, Plain s := by
  intro s hs
  obtain ⟨t, -, rfl⟩ := List.mem_map.1 hs
  exact t.plain_text

/-! ### The line of a word -/

section

variable {f : Field} {w w' : Word} {t : Token} {operands : List Word} {k : Nat} {m : Mnemonic}
  {i i' : Instruction}

theorem registerText_eq (hk : operands[k]? = some (f.extract w)) (hf : f.width = 5)
    (h : f.Shows w t) : registerText operands k = t.text := by
  cases t with
  | register r =>
    rw [registerText, hk, h.2]
    simp only [Register.ofWord?_toWord]
    rfl
  | number | address => exact absurd (hf.symm.trans h.1) (by decide)

theorem numberText_eq (hk : operands[k]? = some (f.extract w)) (hf : f.width = 16)
    (h : f.Shows w t) : numberText operands k = t.text := by
  cases t with
  | number n =>
    rw [numberText, hk, Token.text, h.2]
  | register | address => exact absurd (hf.symm.trans h.1) (by decide)

/-- Shifting a field of 26 bits loses nothing. -/
theorem toNat_shiftLeft_extract (hf : f.width = 26) :
    (f.extract w <<< 2).toNat = 4 * (f.extract w).toNat := by
  have hlt : (f.extract w).toNat < 0x4000000 := by
    rw [f.toNat_extract (by omega) (by omega), hf]
    exact Nat.mod_lt _ (by decide)
  rw [BitVec.toNat_shiftLeft, Nat.shiftLeft_eq]
  omega

theorem addressText_eq (hf : f.width = 26) (h : f.Shows w t) :
    "0x" ++ lowerHex 1 (f.extract w <<< 2).toNat = t.text := by
  cases t with
  | address n => rw [toNat_shiftLeft_extract hf, Token.text, h.2]
  | register | number => exact absurd (hf.symm.trans h.1) (by decide)

/-- **The line of a word** is its mnemonic and the tokens that show its fields. -/
theorem Mnemonic.render_eq {ts : List Token}
    (h : List.Forall₂ (fun f t => f.Shows w t) m.template.fields ts) :
    m.descriptor.render (m.template.extract w) = m.format.line m.name (ts.map Token.text) := by
  -- by the kinds of the operands: each field has its token, and each operand is shown by it
  cases m
  case attack | stack | garbage | rotate =>
    obtain _ | ⟨h0, _ | ⟨h1, _ | ⟨h2, ⟨⟩⟩⟩⟩ := h
    show _ ++ ", ".intercalate [registerText _ 0, registerText _ 1, registerText _ 2] = _
    rw [registerText_eq rfl rfl h0, registerText_eq rfl rfl h1, registerText_eq rfl rfl h2]
    rfl
  case delay =>
    obtain _ | ⟨h0, _ | ⟨h1, ⟨⟩⟩⟩ := h
    show _ ++ ", ".intercalate [registerText _ 0, registerText _ 1] = _
    rw [registerText_eq rfl rfl h0, registerText_eq rfl rfl h1]
    rfl
  case drop =>
    obtain _ | ⟨h0, ⟨⟩⟩ := h
    show _ ++ ", ".intercalate [registerText _ 0] = _
    rw [registerText_eq rfl rfl h0]
    rfl
  case harddrop | ghostpiece | slowgravity =>
    obtain _ | ⟨h0, _ | ⟨h1, _ | ⟨h2, ⟨⟩⟩⟩⟩ := h
    show _ ++ ", ".intercalate [registerText _ 0, registerText _ 1, numberText _ 2] = _
    rw [registerText_eq rfl rfl h0, registerText_eq rfl rfl h1, numberText_eq rfl rfl h2]
    rfl
  case combo =>
    obtain _ | ⟨h0, ⟨⟩⟩ := h
    show _ ++ ", ".intercalate [numberText _ 0] = _
    rw [numberText_eq rfl rfl h0]
    rfl
  case hold | next =>
    obtain _ | ⟨h0, _ | ⟨h1, _ | ⟨h2, ⟨⟩⟩⟩⟩ := h
    show _ ++ registerText _ 0 ++ _ ++ numberText _ 1 ++ _ ++ registerText _ 2 ++ _ = _
    rw [registerText_eq rfl rfl h0, numberText_eq rfl rfl h1, registerText_eq rfl rfl h2]
    rfl
  case lineclear | nonclear =>
    obtain _ | ⟨h0, _ | ⟨h1, _ | ⟨h2, ⟨⟩⟩⟩⟩ := h
    show _ ++ registerText _ 0 ++ _ ++ registerText _ 1 ++ _ ++ numberText _ 2 = _
    rw [registerText_eq rfl rfl h0, registerText_eq rfl rfl h1, numberText_eq rfl rfl h2]
    simp only [List.map_cons, List.map_nil, OperandFormat.line, format,
      String.intercalate_cons_cons, String.intercalate_singleton, String.append_assoc]
    rfl
  case shift =>
    obtain _ | ⟨h0, ⟨⟩⟩ := h
    rw [List.map_singleton, ← addressText_eq rfl h0]
    rfl
  case downstack | topout | allclear | viewboard | tetris =>
    rfl

/-- Every word has tokens for the fields of a mnemonic. -/
theorem Mnemonic.exists_tokens (m : Mnemonic) (w : Word) :
    ∃ ts, List.Forall₂ (fun f t => f.Shows w t) m.template.fields ts :=
  exists_forall₂_iff.2 fun _ hf => Field.exists_shows hf w

/-- A decoded word is shown by a mnemonic and tokens. -/
theorem exists_line (h : instructionSet.resolve w = .ok i) :
    ∃ (m : Mnemonic) (ts : List Token), instructionSet.decode w = .ok m.descriptor ∧
      i = m.instruction (m.template.extract w) ∧
      List.Forall₂ (fun f t => f.Shows w t) m.template.fields ts ∧
      i.render = m.format.line m.name (ts.map Token.text) := by
  obtain ⟨d, hd, rfl⟩ := resolve_eq_ok_iff.1 h
  obtain ⟨m, rfl⟩ : ∃ m : Mnemonic, m.descriptor = d := ⟨_, (matchesWord_of_decode hd).1⟩
  obtain ⟨ts, hts⟩ := m.exists_tokens w
  refine ⟨m, ts, hd, rfl, hts, ?_⟩
  rw [Instruction.render, Catalog.render, lookup_key build_all m.descriptor_mem]
  exact m.render_eq hts

/-- Tokens with the same texts show the same fields. -/
theorem extract_eq_of_tokens {fs : List Field} {ts ts' : List Token}
    (h : List.Forall₂ (fun f t => f.Shows w t) fs ts)
    (h' : List.Forall₂ (fun f t => f.Shows w' t) fs ts')
    (htexts : ts.map Token.text = ts'.map Token.text) :
    fs.map (·.extract w) = fs.map (·.extract w') := by
  induction h generalizing ts' with
  | nil => rfl
  | cons ht _ ih =>
    cases h' with
    | cons ht' hrest =>
      obtain ⟨htext, htexts⟩ := List.cons_eq_cons.1 htexts
      rw [List.map_cons, List.map_cons, ht.extract_eq ht' htext, ih hrest htexts]

/-- The pieces of a line are its mnemonic and its tokens. -/
theorem Mnemonic.pieces_line {ts : List Token}
    (h : List.Forall₂ (fun f t => f.Shows w t) m.template.fields ts) :
    pieces (m.format.line m.name (ts.map Token.text)).toList =
      (m.name :: ts.map Token.text).map String.toList := by
  refine OperandFormat.pieces_line m.plain_name (Token.plain_texts ts) fun hbare => ?_
  have hall : ∀ m ∈ all, m.format = .bare → m.template.fields = [] := by decide
  rw [hall m m.mem_all hbare] at h
  cases h
  rfl

/-- **Words with the same line are equal.** -/
theorem eq_of_render_eq (h : instructionSet.resolve w = .ok i)
    (h' : instructionSet.resolve w' = .ok i') (heq : i.render = i'.render) : w = w' := by
  obtain ⟨m, ts, hd, -, hts, hline⟩ := exists_line h
  obtain ⟨m', ts', hd', -, hts', hline'⟩ := exists_line h'
  rw [hline, hline'] at heq
  have hpieces := Mnemonic.pieces_line hts
  rw [heq, Mnemonic.pieces_line hts'] at hpieces
  have hlists := List.map_injective_iff.2 (fun _ _ => String.toList_inj.1) hpieces
  obtain ⟨hname, htexts⟩ := List.cons_eq_cons.1 hlists
  obtain rfl := Mnemonic.name_inj hname
  have hextract : m'.template.extract w = m'.template.extract w' :=
    extract_eq_of_tokens hts hts' htexts.symm
  -- both words are the encoding of what they hold
  have hw : m'.encode (m'.template.extract w) = .ok w := encode_of_decode hd
  rw [hextract] at hw
  exact Except.ok.inj (hw.symm.trans (encode_of_decode hd'))

/-- A character that belongs in no line. -/
theorem notMem_render {c : Char} (h : instructionSet.resolve w = .ok i) (hc : isPlain c = false)
    (hc' : c ∉ separators) : c ∉ i.render.toList := by
  obtain ⟨m, ts, -, -, -, hline⟩ := exists_line h
  intro hmem
  rw [hline] at hmem
  rcases OperandFormat.drawn_line m.plain_name (Token.plain_texts ts) c hmem with hplain | hsep
  · rw [hc] at hplain
    cases hplain
  · exact hc' hsep

end

/-- **Disassembly loses nothing.** Different words that can be decoded have different lines, so a
word can be recovered from its line. The line is the mnemonic and a token for each field: the name
of a register or a number, and never a mark of a missing operand, of an unknown register or of an
unknown key. A jump shows four times the 26 bits of its target. -/
theorem Instruction.render_lossless :
    (∀ w w' i i', instructionSet.resolve w = .ok i → instructionSet.resolve w' = .ok i' →
      w ≠ w' → i.render ≠ i'.render) ∧
    (∃ recover : String → Option Word, ∀ w i, instructionSet.resolve w = .ok i →
      recover i.render = some w) ∧
    (∀ w d i, instructionSet.decode w = .ok d → instructionSet.resolve w = .ok i →
      i.operands = d.template.fields.map (·.extract w) ∧
      (∃ ts, List.Forall₂ (fun f t => f.Shows w t) d.template.fields ts ∧
        i.render = d.format.line d.mnemonic.name (ts.map Token.text)) ∧
      '?' ∉ i.render.toList ∧ '<' ∉ i.render.toList) ∧
    ∀ w i, instructionSet.decode w = .ok Mnemonic.shift.descriptor →
      instructionSet.resolve w = .ok i →
      i.render = "shift 0x" ++ lowerHex 1 (4 * (w.toNat % 2 ^ 26)) := by
  refine ⟨fun w w' i i' h h' hne heq => hne (eq_of_render_eq h h' heq), ?_, ?_, ?_⟩
  · classical
    refine ⟨fun s => if h : ∃ w i, instructionSet.resolve w = .ok i ∧ i.render = s then
      some h.choose else none, fun w i h => ?_⟩
    have hex : ∃ w' i', instructionSet.resolve w' = .ok i' ∧ i'.render = i.render := ⟨w, i, h, rfl⟩
    obtain ⟨i', hi', hrender⟩ := hex.choose_spec
    simp only [dif_pos hex]
    rw [eq_of_render_eq hi' h hrender]
  · intro w d i hd h
    obtain ⟨m, ts, hm, rfl, hts, hline⟩ := exists_line h
    cases hd.symm.trans hm
    refine ⟨rfl, ⟨ts, hts, hline⟩, notMem_render h (by decide) (by decide),
      notMem_render h (by decide) (by decide)⟩
  · -- the shift of the target loses none of its 26 bits
    intro w i hd h
    obtain ⟨m, ts, hm, rfl, hts, hline⟩ := exists_line h
    have heq : Mnemonic.shift.descriptor = m.descriptor := Except.ok.inj (hd.symm.trans hm)
    obtain rfl : Mnemonic.shift = m := congrArg Descriptor.mnemonic heq
    obtain _ | ⟨h0, ⟨⟩⟩ := hts
    have hfield : ((⟨0, 0, 26⟩ : Field).extract w).toNat = w.toNat % 2 ^ 26 :=
      Field.toNat_extract (f := ⟨0, 0, 26⟩) (by decide) (by decide) w
    have hname : "shift" ++ " " ++ "0x" = "shift 0x" := by decide
    rw [hline, List.map_singleton, ← addressText_eq rfl h0, toNat_shiftLeft_extract rfl, hfield,
      ← hname, String.append_assoc]
    rfl

/-- Two words that differ in the sign bit of an immediate, and the widest jump. -/
theorem Instruction.render_lossless_immediate :
    (Mnemonic.harddrop.instruction [8, 0, 0x7fff]).render ≠
        (Mnemonic.harddrop.instruction [8, 0, 0xffffffff]).render ∧
      (Mnemonic.shift.instruction [0x3ffffff]).render =
        "shift 0x" ++ lowerHex 1 (4 * ((0x0bffffff#32).toNat % 2 ^ 26)) := by
  obtain ⟨hne, -, -, hshift⟩ := Instruction.render_lossless
  exact ⟨hne 0x20087fff 0x2008ffff _ _ rfl rfl (by decide), hshift 0x0bffffff _ rfl rfl⟩

end TetrisMachine
