import TetrisMachine.Proofs.Execution.Outcome

/-!
# Targets of jumps and branches

A jump goes to an address in the region of 2^28 bytes that holds the program counter;
a branch and an instruction that is followed by the next one move relative to it.

* `toNat_jumpAddress`: where a jump goes.
* `Operation.target_transfer_add`: if the program counter is moved, the target moves
  with it.
* `Operation.dvd_target_transfer`: the targets of an aligned program counter are aligned.
-/

namespace TetrisMachine

theorem getLsbD_regionMask : ∀ i < 32, (0xf0000000 : Word).getLsbD i = decide (28 ≤ i) := by
  decide

/-- The region of an address is its top four bits. -/
theorem and_regionMask (pc : Word) : pc &&& (0xf0000000 : Word) = (pc >>> 28) <<< 28 := by
  apply BitVec.eq_of_getLsbD_eq
  intro i hi
  rw [BitVec.getLsbD_and, getLsbD_regionMask i hi, BitVec.getLsbD_shiftLeft,
    BitVec.getLsbD_ushiftRight]
  by_cases h : 28 ≤ i
  · simp [h, hi, show ¬ i < 28 by omega]
  · simp [h, show i < 28 by omega]

theorem toNat_and_regionMask (pc : Word) :
    (pc &&& (0xf0000000 : Word)).toNat = pc.toNat / 0x10000000 * 0x10000000 := by
  rw [and_regionMask, BitVec.toNat_shiftLeft, BitVec.toNat_ushiftRight, Nat.shiftRight_eq_div_pow,
    Nat.shiftLeft_eq]
  omega

/-- **A jump goes to its target in words, in the region of the program counter.** -/
theorem toNat_jumpAddress {pc target : Word} (h : target.toNat < 0x4000000) :
    (jumpAddress pc target).toNat = pc.toNat / 0x10000000 * 0x10000000 + 4 * target.toNat := by
  have hs : (target <<< 2).toNat = 4 * target.toNat := by
    rw [BitVec.toNat_shiftLeft, Nat.shiftLeft_eq]
    omega
  -- the target in words has 28 bits, so it does not meet the region
  have hdisjoint : (pc &&& (0xf0000000 : Word)) &&& (target <<< 2) = 0#32 := by
    apply BitVec.eq_of_getLsbD_eq
    intro i hi
    rw [BitVec.getLsbD_and, BitVec.getLsbD_and, getLsbD_regionMask i hi, BitVec.getLsbD_zero]
    by_cases hle : 28 ≤ i
    · have hlt : (target <<< 2).toNat < 2 ^ i :=
        Nat.lt_of_lt_of_le (by omega) (Nat.pow_le_pow_right (by decide) hle)
      have hbit : (target <<< 2).getLsbD i = false := Nat.testBit_lt_two_pow hlt
      rw [hbit, Bool.and_false]
    · simp [hle]
  change ((pc &&& (0xf0000000 : Word)) ||| (target <<< 2)).toNat = _
  rw [← BitVec.add_eq_or_of_and_eq_zero _ _ hdisjoint,
    BitVec.toNat_add_of_and_eq_zero hdisjoint, toNat_and_regionMask, hs]

/-- A jump moves with the program counter if that is moved by whole regions. -/
theorem jumpAddress_add {pc target d : Word} (ht : target.toNat < 0x4000000)
    (hd : 0x10000000 ∣ d.toNat) : jumpAddress (pc + d) target = jumpAddress pc target + d := by
  obtain ⟨k, hk⟩ := hd
  apply BitVec.eq_of_toNat_eq
  rw [BitVec.toNat_add, toNat_jumpAddress ht, toNat_jumpAddress ht, BitVec.toNat_add]
  omega

/-- **The target of an operation moves with the program counter**, for a jump if it is
moved by whole regions. -/
theorem Operation.target_transfer_add {G : Type} (op : Operation) (c : Cpu G) (pc d : Word)
    (h : ∀ target, op = .shift target → target.toNat < 0x4000000 ∧ 0x10000000 ∣ d.toNat) :
    (op.transfer c (pc + d)).target (pc + d) = (op.transfer c pc).target pc + d := by
  have hadd (w : Word) : pc + d + w = pc + w + d := by
    rw [BitVec.add_assoc, BitVec.add_comm d, ← BitVec.add_assoc]
  cases op
  case shift target =>
    obtain ⟨ht, hd⟩ := h target rfl
    exact jumpAddress_add ht hd
  case lineclear a b offset =>
    by_cases hab : c.registers.read a = c.registers.read b
    · simp only [transfer, if_pos hab]
      exact hadd _
    · simp only [transfer, if_neg hab]
      rfl
  case nonclear a b offset =>
    by_cases hab : c.registers.read a = c.registers.read b
    · simp only [transfer, if_pos hab]
      rfl
    · simp only [transfer, if_neg hab]
      exact hadd _
  all_goals rfl

/-- A jump goes to an aligned address. -/
theorem dvd_jumpAddress (pc target : Word) : 4 ∣ (jumpAddress pc target).toNat := by
  have hregion : (pc &&& (0xf0000000 : Word)).toNat % 2 ^ 2 = 0 := by
    rw [toNat_and_regionMask]
    omega
  have htarget : (target <<< 2).toNat % 2 ^ 2 = 0 := by
    rw [BitVec.toNat_shiftLeft, Nat.shiftLeft_eq]
    omega
  apply Nat.dvd_of_mod_eq_zero
  change ((pc &&& (0xf0000000 : Word)) ||| (target <<< 2)).toNat % 2 ^ 2 = 0
  rw [BitVec.toNat_or, Nat.or_mod_two_pow, hregion, htarget]
  rfl

/-- **Control goes from an aligned address to an aligned one.** -/
theorem Operation.dvd_target_transfer {G : Type} (op : Operation) (c : Cpu G) {pc : Word}
    (h : 4 ∣ pc.toNat) : 4 ∣ ((op.transfer c pc).target pc).toNat := by
  have hbranch (offset : Word) : 4 ∣ (pc + offset * 4).toNat := by
    rw [BitVec.toNat_add, BitVec.toNat_mul, show (4 : Word).toNat = 4 from rfl]
    omega
  cases op
  case shift target => exact dvd_jumpAddress pc target
  case lineclear a b offset =>
    by_cases hab : c.registers.read a = c.registers.read b
    · simp only [transfer, if_pos hab]
      exact hbranch offset
    · simp only [transfer, if_neg hab]
      exact h
  case nonclear a b offset =>
    by_cases hab : c.registers.read a = c.registers.read b
    · simp only [transfer, if_pos hab]
      exact h
    · simp only [transfer, if_neg hab]
      exact hbranch offset
  all_goals exact h

end TetrisMachine
