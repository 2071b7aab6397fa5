/-!
# Words

A word is 32 bits wide. Registers, memory cells, addresses, encodings and
immediates are all words; `BitVec.toInt` reads one as a signed number and
`BitVec.toNat` as an unsigned one.

* `toInt_signExtend16`: the value of an immediate, from its low 16 bits.
* `signExtend16_eq_self_iff`: the immediates that are their own sign extension.
-/

namespace TetrisMachine

/-- A machine word. -/
abbrev Word := BitVec 32

/-- Sign-extends the low 16 bits of an immediate. -/
def signExtend16 (imm : Word) : Word :=
  (imm.setWidth 16).signExtend 32

/-- The signed numbers that a word can hold. -/
def InSignedRange (n : Int) : Prop :=
  -0x80000000 ≤ n ∧ n < 0x80000000

instance (n : Int) : Decidable (InSignedRange n) :=
  inferInstanceAs (Decidable (_ ∧ _))

theorem toInt_eq_toNat_of_nonneg {v : Word} (h : 0 ≤ v.toInt) : v.toInt = v.toNat := by
  have hv := BitVec.toInt_eq_toNat_cond v
  have hlt := v.isLt
  split at hv <;> omega

/-- An immediate stands for its low 16 bits, read in two's complement. -/
theorem toInt_signExtend16 (imm : Word) :
    (signExtend16 imm).toInt = (imm.setWidth 16).toInt :=
  BitVec.toInt_signExtend_of_le (by decide)

/-- An immediate is its own sign extension if it is a signed number of 16 bits. -/
theorem signExtend16_eq_self_iff {v : Word} :
    signExtend16 v = v ↔ -0x8000 ≤ v.toInt ∧ v.toInt < 0x8000 := by
  have hs : (v.setWidth 16).toInt = Int.bmod v.toNat 0x10000 := BitVec.toInt_setWidth v
  have hv := BitVec.toInt_eq_toNat_cond v
  have hlt := v.isLt
  rw [← BitVec.toInt_inj, toInt_signExtend16, hs, Int.bmod_def]
  split at hv <;> split <;> omega

/-- Sign extension sees the low 16 bits only. -/
theorem signExtend16_congr {v w : Word} (h : ∀ i < 16, v.getLsbD i = w.getLsbD i) :
    signExtend16 v = signExtend16 w := by
  have : v.setWidth 16 = w.setWidth 16 := by
    apply BitVec.eq_of_getLsbD_eq
    intro i hi
    rw [BitVec.getLsbD_setWidth, BitVec.getLsbD_setWidth, h i hi]
  rw [signExtend16, this, signExtend16]

theorem getLsbD_signExtend16 {v : Word} {i : Nat} (hi : i < 16) :
    (signExtend16 v).getLsbD i = v.getLsbD i := by
  rw [signExtend16, BitVec.getLsbD_signExtend, BitVec.getLsbD_setWidth]
  simp [hi, show i < 32 by omega]

theorem signExtend16_signExtend16 (v : Word) : signExtend16 (signExtend16 v) = signExtend16 v :=
  signExtend16_congr fun _ hi => getLsbD_signExtend16 hi

end TetrisMachine
