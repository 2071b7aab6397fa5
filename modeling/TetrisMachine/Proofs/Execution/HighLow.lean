import Mathlib.Algebra.Order.Ring.Int
import TetrisMachine.Proofs.Execution.Atomicity
import TetrisMachine.Proofs.InstructionSet.Operands

/-!
# Results in `hi` and `lo`

`attack` leaves an exact product in `hi` and `lo`, its high and its low half. `delay` leaves the
remainder of a division in `hi` and its quotient in `lo`. Both read their operands before they
write, so any of them may be `hi` or `lo`.

* `joined_wideProduct`: the halves of a product are those of the exact one.
* `dividesTowardZero_of_divide?`: quotient and remainder are exact, except for one division that
  overflows.
* `Instruction.highLow_exact`: what the two instructions leave, whichever registers they name.
-/

namespace TetrisMachine

/-- The signed number of 64 bits with these halves. -/
def joined (high low : Word) : Int :=
  high.toInt * 2 ^ 32 + low.toNat

/-- Division toward zero: the remainder is smaller than the divisor, and it is zero or has the sign
of the dividend. -/
structure DividesTowardZero (a b quotient remainder : Int) : Prop where
  eq : a = quotient * b + remainder
  lt : |remainder| < |b|
  sign : remainder = 0 ∨ remainder.sign = a.sign

/-- The one division whose quotient is no signed number of 32 bits. -/
def QuotientOverflows (a b : Int) : Prop :=
  a = -2 ^ 31 ∧ b = -1

instance (a b : Int) : Decidable (QuotientOverflows a b) :=
  inferInstanceAs (Decidable (_ ∧ _))

section

variable {a b : Word}

/-- The halves of a number of 64 bits are joined to it again. -/
theorem joined_halves (x : BitVec 64) :
    joined ((x >>> 32).setWidth 32) (x.setWidth 32) = x.toInt := by
  have hlt := x.isLt
  have hx : x.toInt = if 2 * x.toNat < 2 ^ 64 then (x.toNat : Int) else x.toNat - 2 ^ 64 :=
    BitVec.toInt_eq_toNat_cond x
  have hlow : (x.setWidth 32).toNat = x.toNat % 2 ^ 32 := BitVec.toNat_setWidth ..
  have hhigh : ((x >>> 32).setWidth 32).toNat = x.toNat / 2 ^ 32 := by
    rw [BitVec.toNat_setWidth, BitVec.toNat_ushiftRight, Nat.shiftRight_eq_div_pow]
    omega
  -- the high half has the sign bit
  have hsigned := BitVec.toInt_eq_toNat_cond ((x >>> 32).setWidth 32)
  rw [hhigh] at hsigned
  unfold joined
  rw [hlow, hsigned, hx]
  split <;> split <;> omega

/-- A product of words is a signed number of 64 bits. -/
theorem toInt_mul_signExtend : (a.signExtend 64 * b.signExtend 64).toInt = a.toInt * b.toInt := by
  have hle : a.toInt * b.toInt ≤ 2 ^ 62 := BitVec.toInt_mul_toInt_le
  have hge : -2 ^ 62 ≤ a.toInt * b.toInt := BitVec.le_toInt_mul_toInt
  rw [BitVec.toInt_mul, BitVec.toInt_signExtend_of_le (by decide),
    BitVec.toInt_signExtend_of_le (by decide)]
  exact Int.bmod_eq_of_le (by omega) (by omega)

/-- **Products are exact.** -/
theorem joined_wideProduct :
    joined (wideProduct a b).high (wideProduct a b).low = a.toInt * b.toInt := by
  unfold wideProduct
  rw [joined_halves, toInt_mul_signExtend]

theorem divide?_eq_some_iff {q : Division} :
    divide? a b = some q ↔ b.toInt ≠ 0 ∧ q = ⟨a.srem b, a.sdiv b⟩ := by
  have hzero : b = 0 ↔ b.toInt = 0 := BitVec.toInt_inj.symm
  unfold divide?
  constructor
  · intro h
    split at h
    · cases h
    · next hb => exact ⟨mt hzero.2 hb, (Option.some.inj h).symm⟩
  · rintro ⟨hne, rfl⟩
    rw [if_neg (mt hzero.1 hne)]

theorem divide?_eq_none_iff : divide? a b = none ↔ b.toInt = 0 := by
  rw [Option.eq_none_iff_forall_ne_some]
  constructor
  · intro h
    by_contra hne
    exact h _ (divide?_eq_some_iff.2 ⟨hne, rfl⟩)
  · rintro hzero q hq
    exact (divide?_eq_some_iff.1 hq).1 hzero

/-- Rounding toward zero divides toward zero. -/
theorem dividesTowardZero_tdiv {x y : Int} (hy : y ≠ 0) :
    DividesTowardZero x y (x.tdiv y) (x.tmod y) where
  eq := by
    have h := Int.tmod_add_mul_tdiv x y
    rw [Int.mul_comm] at h
    omega
  lt := by
    have habs : (x.tmod y).natAbs = x.natAbs % y.natAbs := Int.natAbs_tmod x y
    have hlt : x.natAbs % y.natAbs < y.natAbs := Nat.mod_lt _ (Int.natAbs_pos.2 hy)
    rw [Int.abs_eq_natAbs, Int.abs_eq_natAbs]
    omega
  sign := by
    have h := Int.sign_tmod x y
    split at h
    · exact .inl (Int.sign_eq_zero_iff_zero.1 h)
    · exact .inr h

/-- **Division is exact** unless its quotient overflows. -/
theorem dividesTowardZero_of_divide? {q : Division} (h : divide? a b = some q)
    (hoverflow : ¬ QuotientOverflows a.toInt b.toInt) :
    DividesTowardZero a.toInt b.toInt q.quotient.toInt q.remainder.toInt := by
  obtain ⟨hzero, rfl⟩ := divide?_eq_some_iff.1 h
  have hne : a ≠ .intMin 32 ∨ b ≠ -1#32 := by
    by_contra hboth
    push Not at hboth
    obtain ⟨rfl, rfl⟩ := hboth
    exact hoverflow ⟨rfl, rfl⟩
  have hquotient : (a.sdiv b).toInt = a.toInt.tdiv b.toInt :=
    BitVec.toInt_sdiv_of_ne_or_ne a b hne
  have hremainder : (a.srem b).toInt = a.toInt.tmod b.toInt := BitVec.toInt_srem a b
  rw [hquotient, hremainder]
  exact dividesTowardZero_tdiv hzero

/-- The remainder of a negative number is negative. -/
example : divide? (-7) 2 = some ⟨-1, -3⟩ := by decide

/-- The quotient that overflows comes out as the dividend, without a remainder. -/
theorem divide?_of_overflows (h : QuotientOverflows a.toInt b.toInt) :
    divide? a b = some ⟨0, a⟩ := by
  obtain ⟨ha, hb⟩ := h
  have ha' : a = 0x80000000 := BitVec.toInt_inj.1 ha
  have hb' : b = -1 := BitVec.toInt_inj.1 hb
  subst ha' hb'
  decide

end

section

variable (f : RegisterFile) (high low : Word)

theorem RegisterFile.read_hi_writes : ((f.write .hi high).write .lo low).read .hi = high := by
  rw [read_write_of_ne _ _ (by decide), read_write_same]

theorem RegisterFile.read_writes_of_ne {r : Register} (hhi : r ≠ .hi) (hlo : r ≠ .lo) :
    ((f.write .hi high).write .lo low).read r = f.read r := by
  rw [read_write_of_ne _ _ hlo.symm, read_write_of_ne _ _ hhi.symm]

end

namespace Operation

open RegisterFile

variable {G : Type} [RandomSource G] (c : Cpu G) (d a b : Register)

/-- What `attack` leaves in the registers. -/
theorem registers_attack :
    let f := c.registers
    let g := (attack d a b).registers c
    joined (g.read .hi) (g.read .lo) = (f.read a).toInt * (f.read b).toInt ∧
      (d ≠ .hi → g.read d = g.read .lo) ∧
      ∀ r, r ≠ d → r ≠ .hi → r ≠ .lo → g.read r = f.read r := by
  intro f g
  set p := wideProduct (f.read a) (f.read b) with hp
  have hg : g = ((f.write d p.low).write .hi p.high).write .lo p.low := rfl
  have hhi : g.read .hi = p.high := by rw [hg, read_hi_writes]
  have hlo : g.read .lo = p.low := by rw [hg, read_write_same]
  refine ⟨?_, ?_, ?_⟩
  · rw [hhi, hlo, hp, joined_wideProduct]
  · intro hd
    rw [hlo]
    by_cases hdlo : d = .lo
    · rw [hdlo, hlo]
    · rw [hg, read_writes_of_ne _ _ _ hd hdlo, read_write_same]
  · intro r hrd hrhi hrlo
    rw [hg, read_writes_of_ne _ _ _ hrhi hrlo, read_write_of_ne _ _ hrd.symm]

/-- What `delay` leaves in the registers. -/
theorem registers_delay :
    let f := c.registers
    let x := (f.read a).toInt
    let y := (f.read b).toInt
    let g := (delay a b).registers c
    (y = 0 → g = f) ∧
      (y ≠ 0 → ¬ QuotientOverflows x y →
        DividesTowardZero x y (g.read .lo).toInt (g.read .hi).toInt) ∧
      (QuotientOverflows x y → (g.read .lo).toInt = -2 ^ 31 ∧ (g.read .hi).toInt = 0) ∧
      ∀ r, r ≠ .hi → r ≠ .lo → g.read r = f.read r := by
  intro f x y g
  cases hq : divide? (f.read a) (f.read b) with
  | none =>
    have hy : y = 0 := divide?_eq_none_iff.1 hq
    have hg : g = f := by
      show (delay a b).registers c = f
      simp only [registers, f, hq]
    refine ⟨fun _ => hg, fun hne => absurd hy hne, ?_, fun r _ _ => by rw [hg]⟩
    rintro ⟨-, hneg⟩
    omega
  | some q =>
    have hy : y ≠ 0 := (divide?_eq_some_iff.1 hq).1
    have hg : g = (f.write .hi q.remainder).write .lo q.quotient := by
      show (delay a b).registers c = _
      simp only [registers, f, hq]
    have hhi : g.read .hi = q.remainder := by rw [hg, read_hi_writes]
    have hlo : g.read .lo = q.quotient := by rw [hg, read_write_same]
    rw [hhi, hlo]
    refine ⟨fun h0 => absurd h0 hy, fun _ => dividesTowardZero_of_divide? hq, ?_, ?_⟩
    · intro hoverflow
      rw [divide?_of_overflows hoverflow] at hq
      cases hq
      exact ⟨hoverflow.1, rfl⟩
    · intro r hrhi hrlo
      rw [hg, read_writes_of_ne _ _ _ hrhi hrlo]

end Operation

namespace Instruction

variable {G D : Type} [RandomSource G]

/-- **Multiplication and division are exact**, in every state and for all registers, which may be
the same one and may be `hi` or `lo`. Neither fails. After `attack`, `hi` and `lo` are the halves of
the exact product, and the destination holds what `lo` does unless it is `hi`. After `delay` with
a divisor that is not zero, `lo` is the quotient toward zero and `hi` the remainder; the one
quotient that overflows wraps to the dividend, with remainder zero. A divisor that is zero leaves
everything as it was. No other register changes. -/
theorem highLow_exact (δ : Delegate D) (c : Cpu G) (p : D) (d a b : Register) :
    let f := c.registers
    let x := (f.read a).toInt
    let y := (f.read b).toInt
    (∃ s', ((Mnemonic.attack.instruction [d.toWord, a.toWord, b.toWord]).perform δ).run (c, p) =
        .ok () s' ∧
      joined (s'.1.registers.read .hi) (s'.1.registers.read .lo) = x * y ∧
      (d ≠ .hi → s'.1.registers.read d = s'.1.registers.read .lo) ∧
      ∀ r, r ≠ d → r ≠ .hi → r ≠ .lo → s'.1.registers.read r = f.read r) ∧
    ∃ s', ((Mnemonic.delay.instruction [a.toWord, b.toWord]).perform δ).run (c, p) = .ok () s' ∧
      (y = 0 → s' = (c, p)) ∧
      (y ≠ 0 → ¬ QuotientOverflows x y →
        DividesTowardZero x y (s'.1.registers.read .lo).toInt (s'.1.registers.read .hi).toInt) ∧
      (QuotientOverflows x y →
        (s'.1.registers.read .lo).toInt = -2 ^ 31 ∧ (s'.1.registers.read .hi).toInt = 0) ∧
      ∀ r, r ≠ .hi → r ≠ .lo → s'.1.registers.read r = f.read r := by
  intro f x y
  have hattack := Operation.operation_instruction (.attack d a b) rfl
  have hdelay := Operation.operation_instruction (.delay a b) rfl
  obtain ⟨hzero, hdivides, hoverflow, hothers⟩ := Operation.registers_delay c a b
  refine ⟨⟨_, perform_eq_ok_iff.2 ⟨_, hattack, rfl, rfl⟩, Operation.registers_attack c d a b⟩,
    ⟨_, perform_eq_ok_iff.2 ⟨_, hdelay, rfl, rfl⟩, ?_, hdivides, hoverflow, hothers⟩⟩
  intro hy
  have hkept : (Operation.delay a b).registers c = c.registers := hzero hy
  show (Operation.update c (.delay a b), p) = (c, p)
  rw [Operation.update, hkept]
  rfl

/-- The least word times and by -1, both in `hi` and `lo` themselves. -/
theorem highLow_exact_least :
    let f := (RegisterFile.zero.write .hi 0x80000000).write .lo (-1)
    let s : Cpu Replay × Word := (⟨f, .zero 0 64, [], ⟨#[], 0⟩⟩, 4)
    QuotientOverflows (f.read .hi).toInt (f.read .lo).toInt ∧
      (∃ s', ((Mnemonic.attack.instruction [32, 32, 33]).perform .counter).run s = .ok () s' ∧
        joined (s'.1.registers.read .hi) (s'.1.registers.read .lo) = 2 ^ 31) ∧
      ∃ s', ((Mnemonic.delay.instruction [32, 33]).perform .counter).run s = .ok () s' ∧
        (s'.1.registers.read .lo).toInt = -2 ^ 31 ∧ (s'.1.registers.read .hi).toInt = 0 := by
  intro f s
  have hoverflows : QuotientOverflows (f.read .hi).toInt (f.read .lo).toInt := by decide
  obtain ⟨⟨s', hattack, hproduct, -⟩, t, hdelay, -, -, hleast, -⟩ :=
    highLow_exact .counter s.1 s.2 .hi .hi .lo
  exact ⟨hoverflows, ⟨s', hattack, hproduct⟩, t, hdelay, hleast hoverflows⟩

end Instruction

end TetrisMachine
