import TetrisMachine.Word

/-!
# Word arithmetic

Sums and differences are exact or missing, products are exact in two words, and
division truncates.

* `toInt_of_exactSum`, `toInt_of_exactDifference`: a sum or difference that is
  not missing is the integer one.
-/

namespace TetrisMachine

/-- `a + b`, unless the exact sum leaves the signed range. -/
def exactSum? (a b : Word) : Option Word :=
  if InSignedRange (a.toInt + b.toInt) then some (a + b) else none

/-- `a - b`, unless the exact difference leaves the signed range. -/
def exactDifference? (a b : Word) : Option Word :=
  if InSignedRange (a.toInt - b.toInt) then some (a - b) else none

/-- The signed product of two words over two words. -/
structure WideProduct where
  high : Word
  low : Word
deriving DecidableEq, Repr

/-- The high and the low half of the exact signed product. -/
def wideProduct (a b : Word) : WideProduct :=
  let product : BitVec 64 := a.signExtend 64 * b.signExtend 64
  ⟨(product >>> 32).setWidth 32, product.setWidth 32⟩

/-- The result of a division. -/
structure Division where
  remainder : Word
  quotient : Word
deriving DecidableEq, Repr

/-- Division truncating toward zero, missing for a zero divisor. The least word
divided by -1 wraps to itself, with remainder zero. -/
def divide? (a b : Word) : Option Division :=
  if b = 0 then none else some ⟨a.srem b, a.sdiv b⟩

theorem isSome_exactSum {a b : Word} :
    (exactSum? a b).isSome ↔ InSignedRange (a.toInt + b.toInt) := by
  unfold exactSum?
  split <;> simp_all

theorem isSome_exactDifference {a b : Word} :
    (exactDifference? a b).isSome ↔ InSignedRange (a.toInt - b.toInt) := by
  unfold exactDifference?
  split <;> simp_all

theorem eq_of_exactSum {a b c : Word} (h : exactSum? a b = some c) : c = a + b := by
  unfold exactSum? at h
  split at h
  · exact (Option.some.inj h).symm
  · cases h

theorem eq_of_exactDifference {a b c : Word} (h : exactDifference? a b = some c) :
    c = a - b := by
  unfold exactDifference? at h
  split at h
  · exact (Option.some.inj h).symm
  · cases h

theorem toInt_of_exactSum {a b c : Word} (h : exactSum? a b = some c) :
    c.toInt = a.toInt + b.toInt := by
  unfold exactSum? at h
  split at h
  · next hr =>
    cases h
    obtain ⟨hl, hu⟩ := hr
    rw [BitVec.toInt_add]
    exact Int.bmod_eq_of_le (by omega) (by omega)
  · cases h

theorem toInt_of_exactDifference {a b c : Word} (h : exactDifference? a b = some c) :
    c.toInt = a.toInt - b.toInt := by
  unfold exactDifference? at h
  split at h
  · next hr =>
    cases h
    obtain ⟨hl, hu⟩ := hr
    rw [BitVec.toInt_sub]
    exact Int.bmod_eq_of_le (by omega) (by omega)
  · cases h

end TetrisMachine
