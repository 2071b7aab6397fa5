import TetrisMachine.Debugger.Session
import TetrisMachine.Proofs.Emulator.Step
import TetrisMachine.Random.Replay

/-!
# Steps that fail

A step that fails leaves the machine on the instruction that failed, with nothing
done. The run is halted, and if it is let go on it fails in the same way.

* `Emulator.step_failure`: what is left by a step that fails, and what follows.
-/

namespace TetrisMachine

variable {G : Type} [RandomSource G]

open Debugger in
/-- A run whose next step fails ends there. -/
theorem Debugger.run_of_step_error {e e' : Emulator G} {error : StepError}
    (hs : e.state = .running) (h : e.step = (e', .error error)) (fuel : Nat)
    (input : List String) : run (fuel + 1) e input = some ⟨⟨e', input, []⟩, .error error⟩ := by
  rw [run, hs, h]

namespace Emulator

/-- A step that failed fails again from any run state that is not halted. -/
theorem step_error_setState {e e' : Emulator G} {error : StepError}
    (h : e.step = (e', .error error)) {s : RunState} (hs : s ≠ .halted) :
    ({ e' with state := s } : Emulator G).step = (e', .error error) := by
  obtain ⟨-, hp, rfl⟩ := step_eq_error_iff.1 h
  exact step_eq_error_iff.2 ⟨hs, hp, rfl⟩

/-- **A step that fails changes nothing but the run state, and fails again if it is
tried again.** Registers, memory, output, random source, program counter, history and
the count of steps are as they were, and the run is halted. Further steps do nothing.
If the run is let go on after any number of them, it fails with the same error and
leaves the same state. -/
theorem step_failure {e e' : Emulator G} {error : StepError} (h : e.step = (e', .error error)) :
    e.state ≠ .halted ∧ e' = { e with state := .halted } ∧
    (∀ k, e'.after k = e' ∧ (e'.after k).step = (e', .ok ())) ∧
    ∀ k fuel input, Debugger.run (fuel + 1) { e'.after k with state := .running } input =
      some ⟨⟨e', input, []⟩, .error error⟩ := by
  obtain ⟨hs, -, he⟩ := step_eq_error_iff.1 h
  have hhalted : e'.state = .halted := by
    rw [he]
    rfl
  have hafter (k : Nat) : e'.after k = e' := after_of_halted hhalted k
  refine ⟨hs, he, fun k => ⟨hafter k, ?_⟩, fun k fuel input => ?_⟩
  · rw [hafter k, step_of_halted e' hhalted]
  · rw [hafter k]
    have hagain : ({ e' with state := .running } : Emulator G).step = (e', .error error) :=
      step_error_setState h (by decide)
    exact Debugger.run_of_step_error rfl hagain fuel input

/-- A store to an odd address, after a roll. -/
theorem step_failure_hold :
    let e : Emulator Replay := (start {} [0x74004001, 0xac080001] ⟨#[0x40000000], 0⟩).after 1
    let error : StepError :=
      .failed 0x400004 (Mnemonic.hold.instruction [8, 1, 0]) (.address 1 .misaligned)
    e.steps = 1 ∧ e.cpu.random.used = 1 ∧ e.step = (e.halt, .error error) ∧
      ∀ fuel, Debugger.run (fuel + 1) { e.halt.after 3 with state := .running } ["s"] =
        some ⟨⟨e.halt, ["s"], []⟩, .error error⟩ := by
  intro e error
  have hplan : e.plan = .stop (.error error) := by decide +kernel
  have h : e.step = (e.halt, .error error) := step_of_stop (by decide) hplan
  obtain ⟨-, -, -, hretry⟩ := step_failure h
  exact ⟨rfl, rfl, h, fun fuel => hretry 3 fuel ["s"]⟩

end Emulator

end TetrisMachine
