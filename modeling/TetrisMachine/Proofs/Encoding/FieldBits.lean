import TetrisMachine.Encoding.Field

/-!
# The bits of a field

A field stands for a run of bits of a word. Insertion puts the low bits of an
operand there, and extraction reads them back as the one operand among those
with the same low bits that the field gives.

* `getLsbD_insert`: which bits an insertion sets.
* `extract_eq_canonical`: a word that holds an operand in the field gives the
  canonical reading of that operand.
* `fits_extract`: what is extracted can be inserted again.
-/

namespace TetrisMachine

namespace Field

variable (f : Field)

/-- A bit of a word is one of the field's. -/
def Covers (i : Nat) : Prop :=
  f.shift ≤ i ∧ i < f.shift + f.width

instance (i : Nat) : Decidable (f.Covers i) :=
  inferInstanceAs (Decidable (_ ∧ _))

/-- The reading of an operand that extraction gives: 16 bits are read as signed. -/
def canonical (v : Word) : Word :=
  if f.width = 16 then signExtend16 v else v

variable {f}

theorem getLsbD_mask (h : f.width ≤ 32) (i : Nat) : f.mask.getLsbD i = decide (i < f.width) := by
  rw [mask, Nat.one_shiftLeft, BitVec.getLsbD_ofNat, Nat.testBit_two_pow_sub_one]
  by_cases hi : i < f.width
  · simp [hi, show i < 32 by omega]
  · simp [hi]

/-- **An insertion sets the bits of its field, to the low bits of the operand.** -/
theorem getLsbD_insert (h : f.shift + f.width ≤ 32) (v : Word) (i : Nat) :
    (f.insert v).getLsbD i = (decide (f.Covers i) && v.getLsbD (i - f.shift)) := by
  rw [insert, BitVec.getLsbD_shiftLeft, BitVec.getLsbD_and, getLsbD_mask (by omega)]
  by_cases hi : f.Covers i
  · obtain ⟨hl, hu⟩ := hi
    simp [Covers, hl, hu, show i < 32 by omega, show ¬ i < f.shift by omega,
      show i - f.shift < f.width by omega]
  · unfold Covers at hi
    by_cases hl : i < f.shift
    · simp [Covers, hl, show ¬ f.shift ≤ i by omega]
    · simp [Covers, show ¬ i < f.shift + f.width by omega, show ¬ i - f.shift < f.width by omega]

theorem getLsbD_raw (h : f.width ≤ 32) (w : Word) (i : Nat) :
    ((w >>> f.shift) &&& f.mask).getLsbD i =
      (decide (i < f.width) && w.getLsbD (f.shift + i)) := by
  rw [BitVec.getLsbD_and, BitVec.getLsbD_ushiftRight, getLsbD_mask h, Bool.and_comm]

/-- The low bits of what is extracted are the bits of the field. -/
theorem getLsbD_extract (h : f.width ≤ 32) (w : Word) {i : Nat} (hi : i < f.width) :
    (f.extract w).getLsbD i = w.getLsbD (f.shift + i) := by
  unfold extract
  simp only
  split
  · rw [getLsbD_signExtend16 (by omega), getLsbD_raw h]
    simp [hi]
  · rw [getLsbD_raw h]
    simp [hi]

theorem toNat_raw_lt (h : f.width ≤ 32) (w : Word) :
    ((w >>> f.shift) &&& f.mask).toNat < 1 <<< f.width := by
  rw [Nat.one_shiftLeft]
  refine Nat.lt_pow_two_of_testBit _ fun i hi => ?_
  have hbit := getLsbD_raw h w i
  rw [decide_eq_false (by omega), Bool.false_and] at hbit
  exact hbit

/-- What is extracted from the low 16 bits is their sign extension. -/
theorem extract_signed {operand : Nat} (w : Word) :
    extract ⟨operand, 0, 16⟩ w = signExtend16 w := by
  refine signExtend16_congr fun i hi => ?_
  rw [getLsbD_raw (f := ⟨operand, 0, 16⟩) (by decide : (16 : Nat) ≤ 32)]
  simp [hi]

/-- What is extracted from a field of another width is its bits, as a number. -/
theorem toNat_extract (h : f.width ≤ 32) (h16 : f.width ≠ 16) (w : Word) :
    (f.extract w).toNat = (w >>> f.shift).toNat % (1 <<< f.width) := by
  have hmask : f.mask.toNat = 2 ^ f.width - 1 := by
    rw [mask, Nat.one_shiftLeft, BitVec.toNat_ofNat]
    have hle : 2 ^ f.width ≤ 2 ^ 32 := Nat.pow_le_pow_right (by decide) h
    have hpos : 0 < 2 ^ f.width := Nat.two_pow_pos _
    exact Nat.mod_eq_of_lt (by omega)
  unfold extract
  simp only
  rw [if_neg h16, BitVec.toNat_and, hmask, Nat.and_two_pow_sub_one_eq_mod, Nat.one_shiftLeft]

/-- A field that is narrower than a word is given the operands it takes. -/
theorem fits_extract (h : f.width ≤ 31) (w : Word) : f.Fits (f.extract w) := by
  have hlt : ((w >>> f.shift) &&& f.mask).toNat < 1 <<< f.width := toNat_raw_lt (by omega) w
  unfold Fits extract
  simp only
  split
  · next h16 =>
    have hs : (((w >>> f.shift) &&& f.mask).setWidth 16).toInt < _ := BitVec.toInt_lt
    have hl : _ ≤ (((w >>> f.shift) &&& f.mask).setWidth 16).toInt := BitVec.le_toInt _
    rw [toInt_signExtend16]
    omega
  · have hp : 1 <<< f.width ≤ 1 <<< 31 := by
      rw [Nat.one_shiftLeft, Nat.one_shiftLeft]
      exact Nat.pow_le_pow_right (by decide) h
    have hi : ((w >>> f.shift) &&& f.mask).toInt = ((w >>> f.shift) &&& f.mask).toNat :=
      BitVec.toInt_eq_toNat_of_lt (by omega)
    exact ⟨by omega, hlt⟩

/-- The operands that a field of another width than 16 takes have no bits past
its width. -/
theorem getLsbD_of_fits {v : Word} (h16 : f.width ≠ 16) (hv : f.Fits v) {i : Nat}
    (hi : f.width ≤ i) : v.getLsbD i = false := by
  unfold Fits at hv
  rw [if_neg h16] at hv
  have hlt := hv.2
  rw [Nat.one_shiftLeft] at hlt
  exact Nat.testBit_lt_two_pow (Nat.lt_of_lt_of_le hlt (Nat.pow_le_pow_right (by decide) hi))

/-- **A word that holds an operand in the field gives its canonical reading.** -/
theorem extract_eq_canonical (h : f.width ≤ 32) {v w : Word} (hv : f.Fits v)
    (hw : ∀ i < f.width, w.getLsbD (f.shift + i) = v.getLsbD i) :
    f.extract w = f.canonical v := by
  unfold extract canonical
  simp only
  split
  · next h16 =>
    -- sign extension sees no more than the bits of the field
    apply signExtend16_congr
    intro i hi
    rw [getLsbD_raw h, hw i (by omega)]
    simp [show i < f.width by omega]
  · next h16 =>
    apply BitVec.eq_of_getLsbD_eq
    intro i _
    rw [getLsbD_raw h]
    -- past the field both sides are clear, the operand because it fits
    by_cases hi : i < f.width
    · simp [hi, hw i hi]
    · rw [getLsbD_of_fits h16 hv (by omega)]
      simp [hi]

end Field

end TetrisMachine
