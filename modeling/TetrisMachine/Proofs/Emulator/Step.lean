import Mathlib.Control.Monad.Basic
import TetrisMachine.Emulator.Basic
import TetrisMachine.Proofs.Execution.Atomicity

/-!
# The steps of an emulator

What a step will do is settled before it does anything: it halts the run with an
answer, or it executes an instruction. It depends on the program, the program
counter, the limit and the state that instructions see, and not on the run state.

* `Emulator.step_eq`: a step does what is planned.
* `Emulator.step_eq_error_iff`: a step that fails halts the run and does nothing else.
* `Emulator.step_setState`: a step from another run state.
* `Emulator.steps_after`: each step of a run that goes on executes an instruction.
-/

namespace TetrisMachine

/-- What a step will do. -/
inductive Plan where
  /-- The run halts and nothing is executed. -/
  | stop (answer : Except StepError Unit)
  /-- An instruction is executed, as the operation it stands for. -/
  | execute (i : Instruction) (op : Operation)
deriving DecidableEq, Repr

namespace Emulator

variable {G : Type} [RandomSource G]

/-- What a step will do unless the run is halted. -/
def plan (e : Emulator G) : Plan :=
  if e.AtLimit then .stop (.ok ())
  else
    match e.fetch e.pc with
    | none => .stop (if e.pc = e.endAddress then .ok () else .error (.outside e.pc))
    | some word =>
      match instructionSet.resolve word with
      | .error cause => .stop (.error (.undecodable e.pc word cause))
      | .ok i =>
        match i.operation with
        | .error cause => .stop (.error (.failed e.pc i cause))
        | .ok op =>
          match op.fault? e.cpu with
          | some cause => .stop (.error (.failed e.pc i cause))
          | none => .execute i op

/-- The state after an operation was executed for an instruction. -/
def executed (e : Emulator G) (i : Instruction) (op : Operation) : Emulator G :=
  e.advance i (op.update e.cpu) ((op.transfer e.cpu (e.pc + 4)).target (e.pc + 4))

/-- The state after so many steps. -/
def after (e : Emulator G) : Nat → Emulator G
  | 0 => e
  | k + 1 => (e.after k).step.1

variable {e e' : Emulator G} {error : StepError}

/-- **A step does what is planned.** -/
theorem step_eq (h : e.state ≠ .halted) :
    e.step =
      match e.plan with
      | .stop answer => (e.halt, answer)
      | .execute i op => (e.executed i op, .ok ()) := by
  unfold step plan
  rw [if_neg h]
  by_cases hl : e.AtLimit
  · rw [if_pos hl, if_pos hl]
  rw [if_neg hl, if_neg hl]
  cases e.fetch e.pc with
  | none => rfl
  | some word =>
    dsimp only
    unfold executeWord
    cases instructionSet.resolve word with
    | error cause => rfl
    | ok i =>
      dsimp only
      cases hop : i.operation with
      | error cause => rw [Instruction.run_perform_of_error hop]
      | ok op =>
        rw [Instruction.run_perform_of_ok hop]
        dsimp only
        cases op.fault? e.cpu with
        | some cause => rfl
        | none =>
          -- the delegate of a step is the program counter
          rw [Delegate.follow_counter]
          rfl

theorem step_of_stop {answer : Except StepError Unit} (h : e.state ≠ .halted)
    (hp : e.plan = .stop answer) : e.step = (e.halt, answer) := by
  rw [step_eq h, hp]

/-- The plan does not depend on the run state. -/
theorem plan_setState (e : Emulator G) (s : RunState) :
    ({ e with state := s } : Emulator G).plan = e.plan := rfl

/-- An instruction is executed if the limit is not reached, the word at the program
counter can be decoded and the operation it stands for does not fail. -/
theorem plan_eq_execute_iff {i : Instruction} {op : Operation} :
    e.plan = .execute i op ↔
      ¬ e.AtLimit ∧ ∃ word, e.fetch e.pc = some word ∧ instructionSet.resolve word = .ok i ∧
        i.operation = .ok op ∧ op.fault? e.cpu = none := by
  unfold plan
  by_cases hl : e.AtLimit
  · simp [hl]
  rw [if_neg hl]
  cases e.fetch e.pc with
  | none => simp
  | some word =>
    dsimp only
    cases hr : instructionSet.resolve word with
    | error cause => simp [hr]
    | ok i' =>
      dsimp only
      cases hop : i'.operation with
      | error cause =>
        simp only [reduceCtorEq, false_iff]
        rintro ⟨-, _, ⟨⟩, hr', hop', -⟩
        cases hr.symm.trans hr'
        cases hop.symm.trans hop'
      | ok op' =>
        dsimp only
        cases hf : op'.fault? e.cpu with
        | some cause =>
          simp only [reduceCtorEq, false_iff]
          rintro ⟨-, _, ⟨⟩, hr', hop', hf'⟩
          cases hr.symm.trans hr'
          cases hop.symm.trans hop'
          cases hf.symm.trans hf'
        | none =>
          constructor
          · rintro ⟨⟩
            exact ⟨hl, word, rfl, hr, hop, hf⟩
          · rintro ⟨-, _, ⟨⟩, hr', hop', -⟩
            cases hr.symm.trans hr'
            cases hop.symm.trans hop'
            rfl

/-- **A step that fails halts the run and does nothing else.** -/
theorem step_eq_error_iff :
    e.step = (e', .error error) ↔
      e.state ≠ .halted ∧ e.plan = .stop (.error error) ∧ e' = e.halt := by
  by_cases h : e.state = .halted
  · simp [step_of_halted e h, h]
  rw [step_eq h]
  cases e.plan with
  | stop answer => simp [h, and_comm, eq_comm]
  | execute i op => simp

/-- A step from another run state that is not halted differs in the run state only,
and in that only if the run goes on. -/
theorem step_setState {s : RunState} (hs : s ≠ .halted) (h : e.state ≠ .halted) :
    ({ e with state := s } : Emulator G).step =
      (if e.step.1.state = .halted then e.step.1 else { e.step.1 with state := s }, e.step.2) := by
  have hstep := step_eq (e := { e with state := s }) hs
  rw [plan_setState] at hstep
  rw [hstep, step_eq h]
  cases e.plan with
  | stop answer => rfl
  | execute i op =>
    have hne : (e.executed i op).state ≠ .halted := h
    dsimp only
    rw [if_neg hne]
    rfl

theorem settings_step (e : Emulator G) : e.step.1.settings = e.settings := by
  by_cases h : e.state = .halted
  · rw [step_of_halted e h]
  rw [step_eq h]
  cases e.plan <;> rfl

theorem program_step (e : Emulator G) : e.step.1.program = e.program := by
  by_cases h : e.state = .halted
  · rw [step_of_halted e h]
  rw [step_eq h]
  cases e.plan <;> rfl

/-- A step keeps the run state or halts the run. -/
theorem state_step (e : Emulator G) : e.step.1.state = e.state ∨ e.step.1.state = .halted := by
  by_cases h : e.state = .halted
  · rw [step_of_halted e h]
    exact .inl rfl
  rw [step_eq h]
  cases e.plan with
  | stop answer => exact .inr rfl
  | execute i op => exact .inl rfl

theorem after_succ' (e : Emulator G) (k : Nat) : e.after (k + 1) = e.step.1.after k := by
  induction k with
  | zero => rfl
  | succ k ih => rw [after, ih, after]

theorem after_after (e : Emulator G) (j k : Nat) : (e.after j).after k = e.after (j + k) := by
  induction k with
  | zero => rfl
  | succ k ih => rw [after, ih, ← Nat.add_assoc, after]

/-- Steps of a halted run do nothing. -/
theorem after_of_halted (h : e.state = .halted) (k : Nat) : e.after k = e := by
  induction k with
  | zero => rfl
  | succ k ih => rw [after, ih, step_of_halted e h]

theorem settings_after (e : Emulator G) (k : Nat) : (e.after k).settings = e.settings := by
  induction k with
  | zero => rfl
  | succ k ih => rw [after, settings_step, ih]

theorem program_after (e : Emulator G) (k : Nat) : (e.after k).program = e.program := by
  induction k with
  | zero => rfl
  | succ k ih => rw [after, program_step, ih]

/-- A step executes at most one instruction, and one if it does not leave the run halted. -/
theorem steps_step (e : Emulator G) :
    e.step.1.steps ≤ e.steps + 1 ∧ (e.step.1.state ≠ .halted → e.step.1.steps = e.steps + 1) := by
  by_cases hs : e.state = .halted
  · rw [step_of_halted e hs]
    exact ⟨Nat.le_succ _, fun hne => absurd hs hne⟩
  rw [step_eq hs]
  cases e.plan with
  | stop answer => exact ⟨Nat.le_succ _, fun hne => absurd rfl hne⟩
  | execute i op => exact ⟨Nat.le_refl _, fun _ => rfl⟩

theorem steps_after_le (e : Emulator G) (k : Nat) : (e.after k).steps ≤ e.steps + k := by
  induction k with
  | zero => exact Nat.le_refl _
  | succ k ih =>
    have hstep := (steps_step (e.after k)).1
    rw [after]
    omega

theorem after_of_le {j k : Nat} (hjk : j ≤ k) (h : (e.after j).state = .halted) :
    e.after k = e.after j := by
  obtain ⟨d, rfl⟩ := Nat.exists_eq_add_of_le hjk
  rw [← after_after, after_of_halted h]

/-- Steps keep the run state until one of them halts the run. -/
theorem state_after (e : Emulator G) (k : Nat) :
    (e.after k).state = e.state ∨ (e.after k).state = .halted := by
  induction k with
  | zero => exact .inl rfl
  | succ k ih =>
    rcases state_step (e.after k) with hstep | hstep
    · rw [after, hstep]
      exact ih
    · exact .inr hstep

theorem running_of_after {k : Nat} (h : (e.after k).state = .running) : e.state = .running := by
  rcases state_after e k with hkept | hhalted
  · rw [← hkept, h]
  · rw [h] at hhalted
    cases hhalted

/-- As long as a run goes on, each step executes one instruction. -/
theorem steps_after {k : Nat} (h : (e.after k).state ≠ .halted) :
    (e.after k).steps = e.steps + k := by
  induction k with
  | zero => rfl
  | succ k ih =>
    have hk : (e.after k).state ≠ .halted := by
      intro hhalted
      rw [after_of_le (Nat.le_succ k) hhalted] at h
      exact h hhalted
    have hstep := (steps_step (e.after k)).2 h
    rw [after, hstep, ih hk, Nat.add_assoc]

end Emulator

end TetrisMachine
