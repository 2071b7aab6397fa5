import TetrisMachine.Word

/-!
# Random sources and rolls

A source gives one word after another. A roll of a die with four faces multiplies
a draw by four: the high word of the product is the face, and the low word tells
whether the draw is used, so that every face is given by equally many draws.

* `face_eq`: the face is one more than the top two bits of the draw.
* `accepts_iff`: a draw is used if its bit 29 is clear.
* `rollWithin_eq_some`: a roll takes the draws up to the first one that is used.
-/

namespace TetrisMachine

/-- A source of random words. -/
class RandomSource (G : Type) where
  /-- The next word and the source after it. -/
  draw : G → Word × G
  /-- After so many draws without one that can be used, none will come. -/
  patience : G → Nat

namespace Roll

/-- The high and the low word of a draw times the number of faces. -/
def product (v : Word) : Nat :=
  v.toNat * 4

/-- Whether a draw is used: the low word is in the lower half. -/
def Accepts (v : Word) : Prop :=
  product v % 0x100000000 < 0x80000000

instance (v : Word) : Decidable (Accepts v) :=
  inferInstanceAs (Decidable (_ < _))

/-- The face that a draw gives, from 1 to 4. -/
def face (v : Word) : Word :=
  BitVec.ofNat 32 (1 + product v / 0x100000000)

theorem accepts_iff (v : Word) : Accepts v ↔ v.getLsbD 29 = false := by
  have hv := v.isLt
  simp only [Accepts, product, BitVec.getLsbD, Nat.testBit_eq_decide_div_mod_eq,
    decide_eq_false_iff_not]
  omega

theorem face_eq (v : Word) : face v = 1#32 + v >>> 30 := by
  have hv := v.isLt
  apply BitVec.eq_of_toNat_eq
  simp only [face, product, BitVec.toNat_ofNat, BitVec.toNat_add, BitVec.toNat_ushiftRight,
    Nat.shiftRight_eq_div_pow]
  omega

end Roll

section

variable {G : Type} [RandomSource G]

open RandomSource Roll

/-- The source after so many draws. -/
def sourceAfter (g : G) : Nat → G
  | 0 => g
  | k + 1 => sourceAfter (draw g).2 k

/-- The draws of a source, from zero on. -/
def drawAt (g : G) (k : Nat) : Word :=
  (draw (sourceAfter g k)).1

/-- Draws until a draw is used, at most so many times. -/
def rollWithin : Nat → G → Option (Word × G)
  | 0, _ => none
  | n + 1, g =>
    let (v, g') := draw g
    if Accepts v then some (face v, g') else rollWithin n g'

/-- The face of the first draw that is used, and the source after it. -/
def roll (g : G) : Option (Word × G) :=
  rollWithin (patience g) g

/-- A roll takes the draws up to the first one that is used. -/
theorem rollWithin_eq_some {n k : Nat} {g : G} (hk : k < n) (ha : Accepts (drawAt g k))
    (hr : ∀ i < k, ¬ Accepts (drawAt g i)) :
    rollWithin n g = some (face (drawAt g k), sourceAfter g (k + 1)) := by
  induction n generalizing k g with
  | zero => omega
  | succ n ih =>
    cases k with
    | zero =>
      have ha : Accepts (draw g).1 := ha
      simp [rollWithin, ha, drawAt, sourceAfter]
    | succ k =>
      have h0 : ¬ Accepts (draw g).1 := hr 0 (by omega)
      simp only [rollWithin, h0, if_false]
      exact ih (by omega) ha fun i hi => hr (i + 1) (by omega)

/-- A roll fails if no draw that it looks at is used. -/
theorem rollWithin_eq_none {n : Nat} {g : G} (hr : ∀ i < n, ¬ Accepts (drawAt g i)) :
    rollWithin n g = none := by
  induction n generalizing g with
  | zero => rfl
  | succ n ih =>
    have h0 : ¬ Accepts (draw g).1 := hr 0 (by omega)
    simp only [rollWithin, h0, if_false]
    exact ih fun i hi => hr (i + 1) (by omega)

end

end TetrisMachine
