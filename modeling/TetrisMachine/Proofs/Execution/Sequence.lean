import TetrisMachine.Proofs.Execution.Atomicity

/-!
# Instructions in sequence

Instructions that are executed one after the other. One that fails gives its answer and
leaves all as it is, and the next one is executed all the same.

* `Instruction.outcome`: the answer of an instruction, and what it leaves.
* `Instruction.outcomes`: the answers of instructions in sequence, and what they leave.
-/

namespace TetrisMachine

namespace Instruction

variable {G D : Type} [RandomSource G] {i : Instruction} {op : Operation} {c : Cpu G} {d : D}

/-- The answer of an instruction, and the state and the delegate that it leaves. -/
def outcome (δ : Delegate D) (i : Instruction) (s : Cpu G × D) :
    Except Fault Unit × (Cpu G × D) :=
  match (i.perform δ).run s with
  | .ok () s' => (.ok (), s')
  | .error fault s' => (.error fault, s')

/-- The answers of instructions in sequence, and the state and the delegate that they leave. -/
def outcomes (δ : Delegate D) :
    List Instruction → Cpu G × D → List (Except Fault Unit) × (Cpu G × D)
  | [], s => ([], s)
  | i :: is, s =>
    let (answer, s) := i.outcome δ s
    let (answers, s) := outcomes δ is s
    (answer :: answers, s)

theorem outcome_of_fault {δ : Delegate D} {fault : Fault} (h : i.operation = .ok op)
    (hf : op.fault? c = some fault) : i.outcome δ (c, d) = (.error fault, (c, d)) := by
  rw [outcome, run_perform_of_ok h, hf]

theorem outcome_of_no_fault {δ : Delegate D} (h : i.operation = .ok op)
    (hf : op.fault? c = none) :
    i.outcome δ (c, d) =
      (.ok (), (op.update c, δ.follow (op.transfer c (δ.programCounter d)) d)) := by
  rw [outcome, run_perform_of_ok h, hf]

theorem outcome_of_refused {δ : Delegate D} {fault : Fault} (h : i.operation = .error fault) :
    i.outcome δ (c, d) = (.error fault, (c, d)) := by
  rw [outcome, run_perform_of_error h]

end Instruction

end TetrisMachine
