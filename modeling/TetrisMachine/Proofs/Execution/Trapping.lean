import TetrisMachine.Proofs.Execution.Faults

/-!
# Arithmetic that traps

`harddrop`, `stack` and `garbage` succeed if the exact result of their operands is a signed
number of 32 bits. Whether it is can be read off signs alone, zero counting as positive: a sum
overflows if its summands have one sign and it has the other, a difference if its operands have
different signs and it has that of the second.

* `sumOverflows_iff`, `differenceOverflows_iff`: the rules of signs.
* `Instruction.Traps`: what an instruction does that writes an exact result or nothing.
* `Instruction.trapping_exact`: the three instructions do so, whichever registers they name.
-/

namespace TetrisMachine

/-- Both summands have one sign, and their sum has the other. -/
def SumOverflows (a b : Word) : Prop :=
  (0 ≤ a.toInt ↔ 0 ≤ b.toInt) ∧ ¬ (0 ≤ (a + b).toInt ↔ 0 ≤ a.toInt)

/-- The operands have different signs, and their difference has that of the second. -/
def DifferenceOverflows (a b : Word) : Prop :=
  ¬ (0 ≤ a.toInt ↔ 0 ≤ b.toInt) ∧ (0 ≤ (a - b).toInt ↔ 0 ≤ b.toInt)

instance (a b : Word) : Decidable (SumOverflows a b) :=
  inferInstanceAs (Decidable (_ ∧ _))

instance (a b : Word) : Decidable (DifferenceOverflows a b) :=
  inferInstanceAs (Decidable (_ ∧ _))

theorem inSignedRange_toInt (a : Word) : InSignedRange a.toInt :=
  ⟨BitVec.le_toInt a, BitVec.toInt_lt⟩

/-- **The rule of signs for sums.** -/
theorem sumOverflows_iff {a b : Word} :
    SumOverflows a b ↔ ¬ InSignedRange (a.toInt + b.toInt) := by
  obtain ⟨hal, hau⟩ := inSignedRange_toInt a
  obtain ⟨hbl, hbu⟩ := inSignedRange_toInt b
  have hsum : (a + b).toInt = (a.toInt + b.toInt).bmod (2 ^ 32) := BitVec.toInt_add a b
  -- an exact sum out of range is brought back by 2 ^ 32, to the other side of zero
  rw [Int.bmod_def] at hsum
  unfold SumOverflows InSignedRange
  split at hsum <;> omega

/-- **The rule of signs for differences.** -/
theorem differenceOverflows_iff {a b : Word} :
    DifferenceOverflows a b ↔ ¬ InSignedRange (a.toInt - b.toInt) := by
  obtain ⟨hal, hau⟩ := inSignedRange_toInt a
  obtain ⟨hbl, hbu⟩ := inSignedRange_toInt b
  have hdif : (a - b).toInt = (a.toInt - b.toInt).bmod (2 ^ 32) := BitVec.toInt_sub
  rw [Int.bmod_def] at hdif
  unfold DifferenceOverflows InSignedRange
  split at hdif <;> omega

/-- Only a negative number can take the least word away. -/
example : DifferenceOverflows 0 0x80000000 ∧ ¬ DifferenceOverflows (-1) 0x80000000 := by decide

/-- A number in the signed range is what a word keeps of it. -/
theorem bmod_of_inSignedRange {n : Int} (h : InSignedRange n) : n.bmod (2 ^ 32) = n := by
  obtain ⟨hl, hu⟩ := h
  exact Int.bmod_eq_of_le (by omega) (by omega)

variable {G D : Type} [RandomSource G]

/-- An operation with an exact result fails by it alone. -/
theorem Operation.fault?_of_exactResult {op : Operation} {c : Cpu G} {n : Int}
    (h : op.exactResult? c.registers = some n) :
    op.fault? c = if InSignedRange n then none else some .arithmeticOverflow := by
  cases op with
  | harddrop | stack =>
    cases h
    simp only [fault?, isSome_exactSum]
  | garbage =>
    cases h
    simp only [fault?, isSome_exactDifference]
  | _ => cases h

namespace Instruction

/-- The instruction writes the exact result `n` to a register if it is in range and fails
otherwise, and `overflows` is the rule of signs for it. -/
structure Traps (δ : Delegate D) (i : Instruction) (s : Cpu G × D) (dest : Register) (n : Int)
    (overflows : Prop) : Prop where
  succeeds_iff : (∃ s', (i.perform δ).run s = .ok () s') ↔ InSignedRange n
  inRange_iff : InSignedRange n ↔ ¬ overflows
  /-- The register holds the exact result, and the others what they held. -/
  success : ∀ s', (i.perform δ).run s = .ok () s' →
    (s'.1.registers.read dest).toInt = n ∧
      ∀ r, r ≠ dest → s'.1.registers.read r = s.1.registers.read r
  failure : ∀ fault s', (i.perform δ).run s = .error fault s' →
    fault = .arithmeticOverflow ∧ s'.1.registers = s.1.registers

section

variable {δ : Delegate D} {i : Instruction} {op : Operation} {c : Cpu G} {d : D}

/-- An operation that writes what a word keeps of its exact result traps. -/
theorem traps_of_operation {dest : Register} {w : Word} {n : Int} {overflows : Prop}
    (hop : i.operation = .ok op) (hn : op.exactResult? c.registers = some n)
    (hwrite : op.registers c = c.registers.write dest w) (hw : w.toInt = n.bmod (2 ^ 32))
    (hoverflows : overflows ↔ ¬ InSignedRange n) : i.Traps δ (c, d) dest n overflows := by
  have hinRange : InSignedRange n ↔ ¬ overflows := by rw [hoverflows, not_not]
  have hrun : (i.perform δ).run (c, d) = _ := run_perform_of_ok hop
  rw [Operation.fault?_of_exactResult hn] at hrun
  by_cases hrange : InSignedRange n
  · rw [if_pos hrange] at hrun
    refine ⟨⟨fun _ => hrange, fun _ => ⟨_, hrun⟩⟩, hinRange, fun s' hok => ?_, fun _ _ herror => ?_⟩
    · cases hrun.symm.trans hok
      simp only [Operation.update, hwrite, RegisterFile.read_write_same]
      refine ⟨by rw [hw, bmod_of_inSignedRange hrange], fun r hr => ?_⟩
      exact RegisterFile.read_write_of_ne _ _ hr.symm
    · cases hrun.symm.trans herror
  · rw [if_neg hrange] at hrun
    refine ⟨⟨?_, fun h => absurd h hrange⟩, hinRange, fun _ hok => ?_, fun _ _ herror => ?_⟩
    · rintro ⟨_, hok⟩
      cases hrun.symm.trans hok
    · cases hrun.symm.trans hok
    · cases hrun.symm.trans herror
      exact ⟨rfl, rfl⟩

end

/-- **Arithmetic that traps is exact**, in every state and for all registers, which may be the
same one. The exact result of `harddrop`, `stack` and `garbage` is in the signed range if the rule
of signs reports no overflow. Then they succeed and write that very number; otherwise they fail
and leave all registers alone. `ghostpiece` never fails: it writes the sum modulo `2 ^ 32`, which
is what `harddrop` writes if it succeeds. -/
theorem trapping_exact (δ : Delegate D) (c : Cpu G) (p : D) (d s a b : Register) (imm : Word) :
    let f := c.registers
    let sum : Int := (f.read s).toInt + (imm.setWidth 16).toInt
    let harddrop := Mnemonic.harddrop.instruction [d.toWord, s.toWord, imm]
    let ghostpiece := Mnemonic.ghostpiece.instruction [d.toWord, s.toWord, imm]
    harddrop.Traps δ (c, p) d sum (SumOverflows (f.read s) (signExtend16 imm)) ∧
    (Mnemonic.stack.instruction [d.toWord, a.toWord, b.toWord]).Traps δ (c, p) d
      ((f.read a).toInt + (f.read b).toInt) (SumOverflows (f.read a) (f.read b)) ∧
    (Mnemonic.garbage.instruction [d.toWord, a.toWord, b.toWord]).Traps δ (c, p) d
      ((f.read a).toInt - (f.read b).toInt) (DifferenceOverflows (f.read a) (f.read b)) ∧
    ∃ s', (ghostpiece.perform δ).run (c, p) = .ok () s' ∧
      (s'.1.registers.read d).toInt = sum.bmod (2 ^ 32) ∧
      (∀ r, r ≠ d → s'.1.registers.read r = f.read r) ∧
      ∀ t, (harddrop.perform δ).run (c, p) = .ok () t →
        s'.1.registers.read d = t.1.registers.read d := by
  intro f sum harddrop ghostpiece
  have himm : (signExtend16 imm).toInt = (imm.setWidth 16).toInt := toInt_signExtend16 imm
  have hsum : (f.read s).toInt + (signExtend16 imm).toInt = sum := by rw [himm]
  have hharddrop : harddrop.operation = .ok (.harddrop d s imm) :=
    Operation.operation_instruction (.harddrop d s imm) rfl
  have hghostpiece : ghostpiece.operation = .ok (.ghostpiece d s imm) :=
    Operation.operation_instruction (.ghostpiece d s imm) rfl
  refine ⟨?_, ?_, ?_, ?_⟩
  · refine traps_of_operation hharddrop (congrArg some hsum) rfl ?_ ?_
    · rw [BitVec.toInt_add, hsum]
    · rw [sumOverflows_iff, hsum]
  · exact traps_of_operation (Operation.operation_instruction (.stack d a b) rfl) rfl rfl
      (BitVec.toInt_add ..) sumOverflows_iff
  · exact traps_of_operation (Operation.operation_instruction (.garbage d a b) rfl) rfl rfl
      BitVec.toInt_sub differenceOverflows_iff
  · refine ⟨_, perform_eq_ok_iff.2 ⟨_, hghostpiece, rfl, rfl⟩, ?_, fun r hr => ?_, fun t ht => ?_⟩
    · simp only [Operation.update, Operation.registers, RegisterFile.read_write_same]
      rw [BitVec.toInt_add, hsum]
    · exact RegisterFile.read_write_of_ne _ _ hr.symm
    · obtain ⟨op, hop, -, rfl⟩ := perform_eq_ok_iff.1 ht
      cases hharddrop.symm.trans hop
      rfl

end Instruction

end TetrisMachine
