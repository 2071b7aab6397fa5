import Mathlib.Data.List.Forall2
import Mathlib.Data.Nat.Digits.Defs
import TetrisMachine.Catalog

/-!
# Numerals and their values

What the reader of numerals accepts, and that it reads what the printer of hexadecimal numbers
writes. Digits have the same value in either case.

* `Numeral.Spells`: a text is a numeral of a number.
* `Numeral.read_eq_ok_iff`: the reader accepts the numerals of the numbers below its bound.
* `Numeral.spells_toDigits`, `Numeral.spells_lowerHex`: a number is spelled by its digits, and as it
  is printed.
-/

namespace TetrisMachine.Text

/-! ### Digits -/

/-- The character is the digit of a number below sixteen, in lower or in upper case. -/
def IsDigit (c : Char) (d : Nat) : Prop :=
  d < 16 ∧ (c = d.digitChar ∨ c = d.digitChar.toUpper)

instance (c : Char) (d : Nat) : Decidable (IsDigit c d) :=
  inferInstanceAs (Decidable (_ ∧ _))

section

variable {c : Char} {d : Nat}

theorem toNat_lt_of_digitValue? (h : digitValue? c = some d) : c.toNat < 128 := by
  have hle {e : Char} (hc : c ≤ e) : c.toNat ≤ e.toNat := hc
  unfold digitValue? at h
  split at h
  · next hc => exact Nat.lt_of_le_of_lt (hle hc.2) (by decide)
  split at h
  · next hc => exact Nat.lt_of_le_of_lt (hle hc.2) (by decide)
  split at h
  · next hc => exact Nat.lt_of_le_of_lt (hle hc.2) (by decide)
  · cases h

/-- **The characters that are digits**, and their values. -/
theorem digitValue?_eq_some_iff : digitValue? c = some d ↔ IsDigit c d := by
  constructor
  · intro h
    -- the digits are ASCII characters, which can be listed
    have hall : ∀ n < 128, ∀ d ∈ digitValue? (Char.ofNat n), IsDigit (Char.ofNat n) d := by decide
    have hc := hall c.toNat (toNat_lt_of_digitValue? h) d
    rw [Char.ofNat_toNat] at hc
    exact hc h
  · rintro ⟨hd, hc⟩
    have hall : ∀ d < 16, digitValue? d.digitChar = some d ∧
        digitValue? d.digitChar.toUpper = some d := by decide
    rcases hc with rfl | rfl
    · exact (hall d hd).1
    · exact (hall d hd).2

/-- What is true of the sixteen digits in either case is true of every digit. -/
theorem IsDigit.elim {p : Char → Prop} (h : IsDigit c d)
    (hp : ∀ d < 16, p d.digitChar ∧ p d.digitChar.toUpper) : p c := by
  rcases h.2 with rfl | rfl
  · exact (hp d h.1).1
  · exact (hp d h.1).2

/-- A character whose lower case is a digit is that digit. -/
theorem isDigit_of_toLower (h : IsDigit c.toLower d) : IsDigit c d := by
  by_cases hc : c.toNat < 128
  · have hall : ∀ n < 128, ∀ d < 16,
        IsDigit (Char.ofNat n).toLower d → IsDigit (Char.ofNat n) d := by
      decide +kernel
    have hlower := hall c.toNat hc d h.1
    rw [Char.ofNat_toNat] at hlower
    exact hlower h
  · have hlower : c.toLower = c := by
      unfold Char.toLower
      rw [dif_neg]
      rintro ⟨-, hle⟩
      exact hc (Nat.lt_of_le_of_lt (show c.toNat ≤ 90 from hle) (by decide))
    rwa [hlower] at h

theorem isDigit_digitChar (h : d < 16) : IsDigit d.digitChar d :=
  ⟨h, .inl rfl⟩

end

/-! ### Rows of digits -/

/-- There is a list that is related to another one if something is related to each element. -/
theorem exists_forall₂_iff {α β : Type} {R : α → β → Prop} {as : List α} :
    (∃ bs, List.Forall₂ R as bs) ↔ ∀ a ∈ as, ∃ b, R a b := by
  induction as with
  | nil => exact ⟨fun _ => nofun, fun _ => ⟨[], .nil⟩⟩
  | cons a as ih =>
    rw [List.forall_mem_cons, ← ih]
    constructor
    · rintro ⟨bs, h⟩
      cases h with
      | cons ha has => exact ⟨⟨_, ha⟩, _, has⟩
    · rintro ⟨⟨b, ha⟩, bs, has⟩
      exact ⟨b :: bs, .cons ha has⟩

namespace Numeral

section

variable {radix bound n v : Nat} {c : Char} {cs : List Char} {ds : List Nat}

/-- The characters are digits of a radix, with these values. -/
def Row (radix : Nat) (cs : List Char) (ds : List Nat) : Prop :=
  List.Forall₂ (fun c d => IsDigit c d ∧ d < radix) cs ds

theorem digit?_eq_some_iff {d : Nat} : digit? radix c = some d ↔ IsDigit c d ∧ d < radix := by
  rw [digit?, Option.filter_eq_some_iff, digitValue?_eq_some_iff, decide_eq_true_eq]

theorem pushDigit_eq_ok_iff : pushDigit radix bound v c = .ok n ↔
    ∃ d, (IsDigit c d ∧ d < radix) ∧ v * radix + d = n ∧ n < bound := by
  simp only [pushDigit, ← digit?_eq_some_iff]
  cases digit? radix c with
  | none => simp
  | some d =>
    by_cases hd : v * radix + d < bound
    · simp only [if_pos hd, Except.ok.injEq, Option.some.injEq, exists_eq_left']
      exact ⟨fun h => ⟨h, h ▸ hd⟩, fun h => h.1⟩
    · simp only [if_neg hd, reduceCtorEq, Option.some.injEq, exists_eq_left', false_iff]
      rintro ⟨rfl, hlt⟩
      exact hd hlt

theorem row_cons {d : Nat} :
    Row radix (c :: cs) (d :: ds) ↔ (IsDigit c d ∧ d < radix) ∧ Row radix cs ds :=
  List.forall₂_cons

theorem Row.append {cs' : List Char} {ds' : List Nat} (h : Row radix cs ds)
    (h' : Row radix cs' ds') :
    Row radix (cs ++ cs') (ds ++ ds') :=
  List.rel_append h h'

/-- A digit in front of a row counts for as many powers of the radix as the row is long. -/
theorem ofDigits_reverse_cons (d : Nat) :
    Nat.ofDigits radix (d :: ds).reverse =
      d * radix ^ ds.length + Nat.ofDigits radix ds.reverse := by
  rw [List.reverse_cons, Nat.ofDigits_append, Nat.ofDigits_singleton, List.length_reverse,
    Nat.mul_comm, Nat.add_comm]

/-- **Reading goes on from a value** that is below the bound: the digits that follow are all that
decides, and the value at the end. -/
theorem foldlM_pushDigit_eq_ok_iff (hradix : 0 < radix) (hv : v < bound) :
    cs.foldlM (pushDigit radix bound) v = .ok n ↔
      ∃ ds, Row radix cs ds ∧ v * radix ^ ds.length + Nat.ofDigits radix ds.reverse = n ∧
        n < bound := by
  induction cs generalizing v with
  | nil =>
    constructor
    · intro h
      cases h
      exact ⟨[], .nil, by simp, hv⟩
    · rintro ⟨ds, hrow, hn, -⟩
      cases hrow
      simp only [List.length_nil, pow_zero, Nat.mul_one, List.reverse_nil, Nat.ofDigits_nil,
        Nat.add_zero] at hn
      rw [hn]
      rfl
  | cons c cs ih =>
    rw [List.foldlM_cons, bind_eq_ok]
    constructor
    · rintro ⟨u, hu, h⟩
      obtain ⟨d, hd, rfl, hlt⟩ := pushDigit_eq_ok_iff.1 hu
      obtain ⟨ds, hrow, hn, hbound⟩ := (ih hlt).1 h
      refine ⟨d :: ds, row_cons.2 ⟨hd, hrow⟩, ?_, hbound⟩
      rw [ofDigits_reverse_cons, ← hn, List.length_cons]
      ring
    · rintro ⟨ds, hrow, hn, hbound⟩
      cases ds with
      | nil => cases hrow
      | cons d ds =>
        obtain ⟨hd, hrow⟩ := row_cons.1 hrow
        have hvalue : (v * radix + d) * radix ^ ds.length + Nat.ofDigits radix ds.reverse = n := by
          rw [← hn, ofDigits_reverse_cons, List.length_cons]
          ring
        -- the bound is kept all the way, for a value only grows
        have hgrows : v * radix + d ≤ n := by
          have hpow : 1 ≤ radix ^ ds.length := Nat.one_le_pow _ _ hradix
          calc v * radix + d ≤ (v * radix + d) * radix ^ ds.length := Nat.le_mul_of_pos_right _ hpow
            _ ≤ n := hvalue ▸ Nat.le_add_right _ _
        have hlt : v * radix + d < bound := Nat.lt_of_le_of_lt hgrows hbound
        exact ⟨_, pushDigit_eq_ok_iff.2 ⟨d, hd, rfl, hlt⟩, (ih hlt).2 ⟨ds, hrow, hvalue, hbound⟩⟩

/-! ### Numerals -/

/-- The text is a numeral of a number: digits of the radix, one at least, after at most one plus
sign. -/
def Spells (radix : Nat) (cs : List Char) (n : Nat) : Prop :=
  ∃ sign row ds, cs = sign ++ row ∧ (sign = [] ∨ sign = ['+']) ∧ row ≠ [] ∧ Row radix row ds ∧
    n = Nat.ofDigits radix ds.reverse

theorem Row.exists_isDigit (h : Row radix cs ds) (hc : c ∈ cs) : ∃ d, IsDigit c d := by
  obtain ⟨d, hd, -⟩ := exists_forall₂_iff.1 ⟨ds, h⟩ c hc
  exact ⟨d, hd⟩

/-- A numeral has no characters but a sign and digits. -/
theorem Spells.mem (h : Spells radix cs n) (hc : c ∈ cs) : c = '+' ∨ ∃ d, IsDigit c d := by
  obtain ⟨sign, row, ds, rfl, hsign, -, hrow, -⟩ := h
  rcases List.mem_append.1 hc with hc | hc
  · rcases hsign with rfl | rfl
    · cases hc
    · exact .inl (List.mem_singleton.1 hc)
  · exact .inr (hrow.exists_isDigit hc)

theorem Spells.ne_nil (h : Spells radix cs n) : cs ≠ [] := by
  obtain ⟨sign, row, ds, rfl, -, hrow, -⟩ := h
  exact List.append_ne_nil_of_right_ne_nil _ hrow

theorem readDigits_eq_ok_iff (hradix : 0 < radix) (hbound : 0 < bound) :
    readDigits radix bound cs = .ok n ↔
      (∃ ds, Row radix cs ds ∧ n = Nat.ofDigits radix ds.reverse) ∧ n < bound := by
  rw [readDigits, foldlM_pushDigit_eq_ok_iff hradix hbound]
  simp only [Nat.zero_mul, Nat.zero_add, exists_and_right, ← and_assoc, eq_comm]

theorem ne_plus_of_row (h : Row radix (c :: cs) ds) : c ≠ '+' := by
  rintro rfl
  cases h with
  | cons hd _ => exact absurd (digitValue?_eq_some_iff.2 hd.1) nofun

/-- **The reader of numerals is exact**: it accepts the numerals of the numbers below its bound and
no other text, and gives their values. -/
theorem read_eq_ok_iff (hradix : 0 < radix) (hbound : 0 < bound) :
    read radix bound cs = .ok n ↔ Spells radix cs n ∧ n < bound := by
  unfold read
  split
  case h_1 =>
    refine iff_of_false nofun ?_
    rintro ⟨⟨sign, row, ds, hcs, -, hrow, -⟩, -⟩
    exact hrow (List.append_eq_nil_iff.1 hcs.symm).2
  case h_2 =>
    refine iff_of_false nofun ?_
    rintro ⟨⟨sign, row, ds, hcs, hsign, hne, hrow, -⟩, -⟩
    rcases hsign with rfl | rfl
    · rw [← show _ = row from hcs] at hrow
      exact ne_plus_of_row hrow rfl
    · exact hne (List.cons_eq_cons.1 hcs).2.symm
  case h_3 cs hne =>
    have hcs : cs ≠ [] := fun h => hne (h ▸ rfl)
    rw [readDigits_eq_ok_iff hradix hbound]
    refine and_congr_left' ⟨fun ⟨ds, hrow, hn⟩ => ?_, ?_⟩
    · exact ⟨['+'], cs, ds, rfl, .inr rfl, hcs, hrow, hn⟩
    · rintro ⟨sign, row, ds, hsplit, hsign, -, hrow, hn⟩
      rcases hsign with rfl | rfl
      · rw [← show _ = row from hsplit] at hrow
        exact absurd rfl (ne_plus_of_row hrow)
      · cases hsplit
        exact ⟨ds, hrow, hn⟩
  case h_4 cs hnil _ hplus =>
    rw [readDigits_eq_ok_iff hradix hbound]
    refine and_congr_left' ⟨fun ⟨ds, hrow, hn⟩ => ?_, ?_⟩
    · exact ⟨[], _, ds, rfl, .inl rfl, hnil, hrow, hn⟩
    · rintro ⟨sign, row, ds, hsplit, hsign, -, hrow, hn⟩
      rcases hsign with rfl | rfl
      · rw [← show _ = row from hsplit] at hrow
        exact ⟨ds, hrow, hn⟩
      · exact absurd hsplit (hplus row)

/-- A text is the numeral of one number at most. -/
theorem Spells.unique {n' : Nat} (hradix : 0 < radix) (h : Spells radix cs n)
    (h' : Spells radix cs n') : n = n' := by
  have hbound : 0 < n + n' + 1 := by omega
  have hread := (read_eq_ok_iff hradix hbound).2 ⟨h, by omega⟩
  rw [(read_eq_ok_iff hradix hbound).2 ⟨h', by omega⟩] at hread
  exact (Except.ok.inj hread).symm

/-! ### Numbers that are printed -/

/-- The digits that are printed for a number have it as their value. -/
theorem row_toDigits (h : 1 < radix) (h' : radix ≤ 16) (n : Nat) :
    ∃ ds, Row radix (Nat.toDigits radix n) ds ∧ Nat.ofDigits radix ds.reverse = n := by
  induction n using Nat.strongRecOn with
  | ind n ih =>
    by_cases hn : n < radix
    · rw [Nat.toDigits_of_lt_base hn]
      exact ⟨[n], .cons ⟨isDigit_digitChar (by omega), hn⟩ .nil, Nat.ofDigits_singleton ..⟩
    · obtain ⟨ds, hrow, hds⟩ := ih (n / radix) (Nat.div_lt_self (by omega) h)
      have hlt : n % radix < radix := Nat.mod_lt _ (by omega)
      rw [Nat.toDigits_of_base_le h (by omega)]
      refine ⟨ds ++ [n % radix], hrow.append (.cons ⟨isDigit_digitChar (by omega), hlt⟩ .nil), ?_⟩
      rw [List.reverse_append, List.reverse_singleton, List.singleton_append, Nat.ofDigits_cons,
        hds]
      exact Nat.mod_add_div n radix

theorem row_replicate_zero (h : 0 < radix) (k : Nat) :
    Row radix (List.replicate k '0') (List.replicate k 0) := by
  induction k with
  | zero => exact .nil
  | succ k ih => exact .cons ⟨by decide, h⟩ ih

/-- Zeros in front of a row of digits do not count. -/
theorem ofDigits_reverse_zeros (k : Nat) :
    Nat.ofDigits radix (List.replicate k 0 ++ ds).reverse = Nat.ofDigits radix ds.reverse := by
  rw [List.reverse_append, Nat.ofDigits_append, List.reverse_replicate, Nat.ofDigits_replicate_zero,
    Nat.mul_zero, Nat.add_zero]

/-- A row of digits is a numeral, after any number of zeros and perhaps a plus sign. -/
theorem spells_of_row {sign : List Char} (hsign : sign = [] ∨ sign = ['+']) (hradix : 0 < radix)
    (hrow : Row radix cs ds) (hne : cs ≠ []) (k : Nat) :
    Spells radix (sign ++ (List.replicate k '0' ++ cs)) (Nat.ofDigits radix ds.reverse) :=
  ⟨sign, _, _, rfl, hsign, List.append_ne_nil_of_right_ne_nil _ hne,
    (row_replicate_zero hradix k).append hrow, (ofDigits_reverse_zeros k).symm⟩

/-- **A number is spelled by its digits**, in either case. -/
theorem spells_toDigits {sign : List Char} (hsign : sign = [] ∨ sign = ['+'])
    (h : cs.map Char.toLower = Nat.toDigits 16 n) (k : Nat) :
    Spells 16 (sign ++ (List.replicate k '0' ++ cs)) n := by
  obtain ⟨ds, hrow, rfl⟩ := row_toDigits (show 1 < 16 by decide) (by decide) n
  rw [← h, Row, List.forall₂_map_left_iff] at hrow
  have hcs : Row 16 cs ds := hrow.imp fun c d hd => ⟨isDigit_of_toLower hd.1, hd.2⟩
  refine spells_of_row hsign (by decide) hcs ?_ k
  rintro rfl
  exact Nat.toDigits_ne_nil h.symm

/-- A hexadecimal number is printed as a row of digits that has it as its value. -/
theorem row_lowerHex (width n : Nat) :
    ∃ ds, Row 16 (lowerHex width n).toList ds ∧ Nat.ofDigits 16 ds.reverse = n := by
  obtain ⟨ds, hrow, hds⟩ := row_toDigits (show 1 < 16 by decide) (by decide) n
  rw [lowerHex, String.toList_ofList]
  exact ⟨_, (row_replicate_zero (by decide) _).append hrow, (ofDigits_reverse_zeros _).trans hds⟩

/-- **A hexadecimal number that is printed is spelled.** -/
theorem spells_lowerHex (width n : Nat) : Spells 16 (lowerHex width n).toList n := by
  obtain ⟨ds, hrow, hds⟩ := row_lowerHex width n
  refine ⟨[], (lowerHex width n).toList, ds, rfl, .inl rfl, ?_, hrow, hds.symm⟩
  rw [lowerHex, String.toList_ofList, List.leftpad]
  exact List.append_ne_nil_of_right_ne_nil _ Nat.toDigits_ne_nil

/-- Different numbers are printed differently, in columns of any width. -/
theorem eq_of_lowerHex_eq {width width' n' : Nat} (h : lowerHex width n = lowerHex width' n') :
    n = n' :=
  (spells_lowerHex width n).unique (by decide) (h ▸ spells_lowerHex width' n')

end

end Numeral

end TetrisMachine.Text
