import TetrisMachine.Proofs.Execution.Outcome
import TetrisMachine.Random.Replay

/-!
# Instructions are atomic

An instruction is refused for its key or its operands, or it fails as its operation
does, or it succeeds. It has no effect unless it succeeds.

* `Instruction.perform_eq_ok_iff`, `Instruction.perform_eq_error_iff`: the outcome
  of an instruction.
* `Instruction.perform_atomic`: an instruction that fails has done nothing.
-/

namespace TetrisMachine

variable {G D : Type}

/-- Why an instruction fails. -/
def Instruction.fault? [RandomSource G] (i : Instruction) (c : Cpu G) : Option Fault :=
  match i.operation with
  | .ok op => op.fault? c
  | .error fault => some fault

namespace Instruction

variable [RandomSource G] {δ : Delegate D} {i : Instruction} {op : Operation} {c : Cpu G} {d : D}
  {fault : Fault} {s s' : Cpu G × D}

theorem run_perform_of_ok (h : i.operation = .ok op) :
    (i.perform δ).run (c, d) =
      match op.fault? c with
      | some fault => .error fault (c, d)
      | none => .ok () (op.update c, δ.follow (op.transfer c (δ.programCounter d)) d) := by
  rw [perform, h]
  exact op.run_eq δ c d

theorem run_perform_of_error (h : i.operation = .error fault) :
    (i.perform δ).run (c, d) = .error fault (c, d) := by
  rw [perform, h]
  rfl

/-- An instruction that succeeds updates the state and tells the delegate where
control goes. -/
theorem perform_eq_ok_iff :
    (i.perform δ).run (c, d) = .ok () s' ↔
      ∃ op, i.operation = .ok op ∧ op.fault? c = none ∧
        s' = (op.update c, δ.follow (op.transfer c (δ.programCounter d)) d) := by
  cases h : i.operation with
  | error fault =>
    rw [run_perform_of_error h]
    simp
  | ok op =>
    rw [run_perform_of_ok h]
    cases hf : op.fault? c with
    | some fault => simp [hf]
    | none => simp [hf, @eq_comm _ s']

/-- An instruction that fails keeps the state and does not call the delegate. -/
theorem perform_eq_error_iff :
    (i.perform δ).run (c, d) = .error fault s' ↔ i.fault? c = some fault ∧ s' = (c, d) := by
  cases h : i.operation with
  | error fault =>
    rw [run_perform_of_error h]
    simp [fault?, h, @eq_comm _ s']
  | ok op =>
    rw [run_perform_of_ok h]
    cases hf : op.fault? c with
    | some fault => simp [fault?, h, hf, @eq_comm _ s']
    | none => simp [fault?, h, hf]

theorem run_execute (pc : Word) :
    (i.execute pc).run c =
      match (i.perform (.recorder pc)).run (c, .advance) with
      | .ok () (c, transfer) => .ok transfer c
      | .error fault (c, _) => .error fault c := rfl

theorem run_execute_of_ok (h : i.operation = .ok op) (pc : Word) :
    (i.execute pc).run c =
      match op.fault? c with
      | some fault => .error fault c
      | none => .ok (op.transfer c pc) (op.update c) := by
  rw [run_execute, run_perform_of_ok h]
  cases op.fault? c with
  | some fault => rfl
  | none => exact congrArg (EStateM.Result.ok · _) (Delegate.follow_recorder _ pc)

theorem run_execute_of_error (h : i.operation = .error fault) (pc : Word) :
    (i.execute pc).run c = .error fault c := by
  rw [run_execute, run_perform_of_error h]

/-- **An instruction that fails has done nothing**: registers, memory, output and
random source are as they were, and the delegate was not called. -/
theorem perform_atomic (δ : Delegate D) (i : Instruction) (s s' : Cpu G × D) (fault : Fault)
    (h : (i.perform δ).run s = .error fault s') : s' = s :=
  (perform_eq_error_iff.1 h).2

/-- A sum that overflows into one of its own summands. -/
theorem perform_atomic_stack :
    let c : Cpu Replay := ⟨RegisterFile.zero.write ⟨8⟩ 0x7fffffff, .zero 0 64, [], ⟨#[], 0⟩⟩
    ∃ s', ((Mnemonic.stack.instruction [8, 8, 8]).perform .counter).run (c, 4) =
      .error .arithmeticOverflow s' ∧ s' = (c, 4) :=
  ⟨_, rfl, perform_atomic .counter (Mnemonic.stack.instruction [8, 8, 8]) _ _ _ rfl⟩

end Instruction

end TetrisMachine
