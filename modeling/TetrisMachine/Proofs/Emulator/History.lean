import TetrisMachine.Proofs.Emulator.Drive
import TetrisMachine.Proofs.InstructionSet.Operands

/-!
# The history of a run

Every instruction that is executed with success is recorded where it was executed, and
nothing else is. So the history shows the last instructions that were executed, in order,
and each program counter in it is the one that the instruction before it has left.

* `Execution`, `Emulator.executions`: the instructions that a drive executes.
* `Emulator.execution?_eq_some_iff`: which steps execute an instruction with success.
* `Emulator.Logged`: what executed instructions leave in the emulator.
* `Emulator.logged_drive`: every drive leaves what it has executed.
* `Emulator.history_drive`: the history is a window on the run.
-/

namespace TetrisMachine

/-- An instruction that a step executes, and the state before the step. -/
structure Execution (G : Type) where
  before : Emulator G
  instruction : Instruction

namespace Execution

variable {G : Type} (x : Execution G)

/-- What is recorded of it. -/
def entry : Executed :=
  ⟨x.before.pc, x.instruction⟩

variable [RandomSource G]

/-- The state after the step. -/
def after : Emulator G :=
  x.before.step.1

/-- The run goes on, the word at the program counter resolves to the instruction, and the
instruction succeeds with the program counter past it as the delegate. -/
structure Succeeds : Prop where
  running : x.before.state ≠ .halted
  below : ¬ x.before.AtLimit
  fetched : ∃ word, x.before.fetch x.before.pc = some word ∧
    instructionSet.resolve word = .ok x.instruction
  performed : (x.instruction.perform .counter).run (x.before.cpu, x.before.pc + 4) =
    .ok () (x.after.cpu, x.after.pc)

end Execution

namespace Emulator

variable {G : Type} [RandomSource G] {e e' e'' : Emulator G} {x : Execution G}

/-- The instruction that a step executes with success, if there is one. -/
def execution? (e : Emulator G) : Option (Execution G) :=
  if e.state = .halted then none
  else
    match e.plan with
    | .execute i _ => some ⟨e, i⟩
    | .stop _ => none

/-- The instruction that an action executes with success, if there is one. -/
def executed? (e : Emulator G) (a : Action) : Option (Execution G) :=
  if a.Steps then e.execution? else none

/-- The instructions that a drive executes with success, newest first. -/
def executions (e : Emulator G) : List Action → List (Execution G)
  | [] => []
  | a :: actions => (e.act a).executions actions ++ (e.executed? a).toList

/-- A step that executes an instruction with success. -/
theorem step_of_execution? (h : e.execution? = some x) :
    x.before = e ∧ ∃ op, x.before.state ≠ .halted ∧ x.before.plan = .execute x.instruction op ∧
      x.before.step = (x.before.executed x.instruction op, .ok ()) := by
  unfold execution? at h
  split at h
  · cases h
  · next hs =>
    split at h
    · next i op hp =>
      cases h
      exact ⟨rfl, op, hs, hp, by rw [step_eq hs, hp]⟩
    · cases h

/-- Any other step halts the run and does nothing else. -/
theorem step_of_no_execution (h : e.execution? = none) :
    e.step.1 = { e with state := .halted } := by
  unfold execution? at h
  split at h
  · next hs =>
    rw [step_of_halted e hs, ← hs]
  · next hs =>
    split at h
    · cases h
    · next answer hp =>
      rw [step_of_stop hs hp]
      rfl

/-- **The steps that execute an instruction with success.** -/
theorem execution?_eq_some_iff : e.execution? = some x ↔ x.before = e ∧ x.Succeeds := by
  constructor
  · intro h
    obtain ⟨rfl, op, hs, hp, hstep⟩ := step_of_execution? h
    obtain ⟨hl, word, hfetch, hr, hop, hf⟩ := plan_eq_execute_iff.1 hp
    refine ⟨rfl, hs, hl, ⟨word, hfetch, hr⟩, ?_⟩
    rw [Instruction.run_perform_of_ok hop, hf, Delegate.follow_counter, Execution.after, hstep]
    rfl
  · rintro ⟨rfl, hs, hl, ⟨word, hfetch, hr⟩, hperformed⟩
    obtain ⟨op, hop, hf, -⟩ := Instruction.perform_eq_ok_iff.1 hperformed
    have hp : x.before.plan = .execute x.instruction op :=
      plan_eq_execute_iff.2 ⟨hl, word, hfetch, hr, hop, hf⟩
    rw [execution?, if_neg hs, hp]

/-- What is left when the instructions of a list, newest first, were executed between two
states. -/
structure Logged (log : List (Execution G)) (e e' : Emulator G) : Prop where
  program : e'.program = e.program ∧ e'.settings = e.settings
  succeeds : ∀ x ∈ log,
    x.Succeeds ∧ x.before.program = e.program ∧ x.before.settings = e.settings
  steps : e'.steps = log.length + e.steps
  history : e'.history.toList = (log.map (·.entry) ++ e.history.toList).take historyCapacity
  /-- Each program counter is the one that the instruction before it has left. -/
  counters : e'.pc :: log.map (·.before.pc) = log.map (·.after.pc) ++ [e.pc]

namespace Logged

/-- Setting the run state executes nothing. -/
theorem set (e : Emulator G) (s : RunState) : Logged [] e { e with state := s } where
  program := ⟨rfl, rfl⟩
  succeeds _ hx := absurd hx List.not_mem_nil
  steps := (Nat.zero_add _).symm
  history := (List.take_of_length_le e.history.length_toList_le).symm
  counters := rfl

/-- A step records the instruction that it executes. -/
theorem of_execution? (h : e.execution? = some x) : Logged [x] e e.step.1 := by
  have hsucceeds : x.Succeeds := (execution?_eq_some_iff.1 h).2
  obtain ⟨rfl, op, -, -, hstep⟩ := step_of_execution? h
  refine ⟨⟨program_step _, settings_step _⟩, ?_, ?_, ?_, rfl⟩
  · intro y hy
    cases List.mem_singleton.1 hy
    exact ⟨hsucceeds, rfl, rfl⟩
  · rw [hstep]
    exact Nat.add_comm _ _
  · rw [hstep]
    exact Window.toList_record _ _

theorem trans {log log' : List (Execution G)} (h : Logged log e e') (h' : Logged log' e' e'') :
    Logged (log' ++ log) e e'' where
  program := ⟨h'.program.1.trans h.program.1, h'.program.2.trans h.program.2⟩
  succeeds x hx := by
    rcases List.mem_append.1 hx with hx | hx
    · obtain ⟨hs, hp, ht⟩ := h'.succeeds x hx
      exact ⟨hs, hp.trans h.program.1, ht.trans h.program.2⟩
    · exact h.succeeds x hx
  steps := by
    rw [h'.steps, h.steps, List.length_append, Nat.add_assoc]
  history := by
    -- the old history is cut once more, to what the new entries leave of it
    have hcut (n : Nat) (l m : List Executed) : (l ++ m.take n).take n = (l ++ m).take n := by
      rw [List.take_append, List.take_append, List.take_take, Nat.min_eq_left (Nat.sub_le _ _)]
    rw [h'.history, h.history, hcut, List.map_append, List.append_assoc]
  counters := by
    -- the counter between the two lists is left by the one and found by the other
    calc e''.pc :: (log' ++ log).map (·.before.pc)
        = (e''.pc :: log'.map (·.before.pc)) ++ log.map (·.before.pc) := by
          rw [List.map_append, List.cons_append]
      _ = log'.map (·.after.pc) ++ (e'.pc :: log.map (·.before.pc)) := by
          rw [h'.counters, List.append_assoc, List.singleton_append]
      _ = (log' ++ log).map (·.after.pc) ++ [e.pc] := by
          rw [h.counters, List.map_append, List.append_assoc]

end Logged

/-- An action that executes an instruction is the step that does. -/
theorem act_of_executed? {a : Action} (h : e.executed? a = some x) :
    e.execution? = some x ∧ e.act a = e.step.1 := by
  unfold executed? at h
  by_cases ha : a.Steps
  · rw [if_pos ha] at h
    exact ⟨h, act_of_steps ha⟩
  · rw [if_neg ha] at h
    cases h

/-- Any other action sets the run state or leaves it, and does nothing else. -/
theorem act_of_no_executed {a : Action} (h : e.executed? a = none) :
    ∃ s, e.act a = { e with state := s } := by
  unfold executed? at h
  by_cases ha : a.Steps
  · rw [if_pos ha] at h
    rw [act_of_steps ha]
    exact ⟨.halted, step_of_no_execution h⟩
  · exact act_of_not_steps ha

/-- **An action records what it executes**, and nothing if it executes nothing. -/
theorem logged_act (e : Emulator G) (a : Action) : Logged (e.executed? a).toList e (e.act a) := by
  cases h : e.executed? a with
  | none =>
    obtain ⟨s, hs⟩ := act_of_no_executed h
    rw [hs]
    exact .set e s
  | some x =>
    obtain ⟨hx, hact⟩ := act_of_executed? h
    rw [hact]
    exact .of_execution? hx

/-- **A drive records what it executes.** -/
theorem logged_drive (e : Emulator G) (actions : List Action) :
    Logged (e.executions actions) e (e.drive actions) := by
  induction actions generalizing e with
  | nil => exact .set e e.state
  | cons a actions ih => exact (logged_act e a).trans (ih (e.act a))

end Emulator

theorem Execution.Succeeds.exists_target {G : Type} [RandomSource G] {x : Execution G}
    (h : x.Succeeds) :
    ∃ op, x.instruction.Denotes op ∧
      x.after.pc = (op.transfer x.before.cpu (x.before.pc + 4)).target (x.before.pc + 4) := by
  obtain ⟨op, hop, -, hafter⟩ := Instruction.perform_eq_ok_iff.1 h.performed
  rw [Delegate.follow_counter] at hafter
  exact ⟨op, Instruction.operation_eq_ok_iff.1 hop, congrArg Prod.snd hafter⟩

namespace Debugger

/-- A line that asks for a backtrace is answered by it. -/
theorem lines_respond_of_backtrace {G : Type} [RandomSource G] (e : Emulator G) {line : String}
    {count : Nat} (h : requested line = some (.backtrace count)) :
    (respond e line).lines = backtraceReport e count := by
  rw [respond, requested_eq_some_iff.1 h]
  rfl

end Debugger

namespace Emulator

open Debugger

variable {G : Type} [RandomSource G]

/-- The history of an emulator that started at an address is a window on the
instructions executed since, which are listed newest first. -/
structure Remembers (base : Word) (log : List (Execution G)) (e : Emulator G) : Prop where
  steps : e.steps = log.length
  length : e.history.toList.length = min historyCapacity e.steps
  /-- What the history does not show any more is dropped before long. -/
  dropped : (e.history.recent ++ e.history.older).length < 2 * historyCapacity
  /-- The history shows the last instructions executed, in the order of their execution. -/
  entries : e.history.toList = (log.take (min historyCapacity e.steps)).map (·.entry)
  succeeds : ∀ x ∈ log, x.Succeeds
  fetched : ∀ x ∈ e.history.toList, ∃ word, e.fetch x.pc = some word ∧
    instructionSet.resolve word = .ok x.instruction
  /-- Each program counter is the one that the instruction before it has left, the first
  one the address of the start. -/
  counters : e.pc :: log.map (·.before.pc) = log.map (·.after.pc) ++ [base]
  /-- An instruction leaves the program counter past it, or at the target of its branch or
  jump. -/
  targets : ∀ x ∈ log, ∃ op, x.instruction.Denotes op ∧
    x.after.pc = (op.transfer x.before.cpu (x.before.pc + 4)).target (x.before.pc + 4)
  /-- A step that fails or halts the run changes the run state only. -/
  idle : e.step.2 ≠ .ok () ∨ e.step.1.state = .halted → e.step.1 = { e with state := .halted }
  /-- A backtrace lists the last instructions executed, oldest first. -/
  backtrace : ∀ line count, requested line = some (.backtrace count) →
    (respond e line).lines =
      (log.take (min count (min historyCapacity e.steps))).reverse.map fun x =>
        s!"{location x.before.pc} {x.instruction.render}"

/-- A step that answers with an error or leaves the run halted executes nothing. -/
theorem execution?_eq_none {e : Emulator G}
    (h : e.step.2 ≠ .ok () ∨ e.step.1.state = .halted) : e.execution? = none := by
  by_contra hne
  obtain ⟨x, hx⟩ := Option.ne_none_iff_exists'.1 hne
  obtain ⟨rfl, op, hs, -, hstep⟩ := step_of_execution? hx
  rw [hstep] at h
  rcases h with h | h
  · exact h rfl
  · exact hs h

/-- What a fresh emulator has executed is what it remembers. -/
theorem Logged.remembers {settings : Settings} {program : List Word} {random : G}
    {log : List (Execution G)} {e : Emulator G} (h : Logged log (start settings program random) e) :
    Remembers settings.textBase log e := by
  have hsteps : e.steps = log.length := h.steps
  have hentries : e.history.toList = (log.take (min historyCapacity e.steps)).map (·.entry) := by
    have hhistory := h.history
    rw [hsteps, List.map_take, ← List.length_map (f := (·.entry)), ← List.take_take,
      List.take_length]
    simpa [start] using hhistory
  have hdropped : (e.history.recent ++ e.history.older).length < 2 * historyCapacity :=
    e.history.length_kept_lt (by decide)
  refine ⟨hsteps, ?_, hdropped, hentries, fun x hx => (h.succeeds x hx).1, ?_, h.counters, ?_, ?_,
    ?_⟩
  · rw [hentries, List.length_map, List.length_take, hsteps]
    omega
  · intro y hy
    rw [hentries] at hy
    obtain ⟨x, hx, rfl⟩ := List.mem_map.1 hy
    obtain ⟨hsucceeds, hprogram, hsettings⟩ := h.succeeds x (List.mem_of_mem_take hx)
    -- the program is where it was when the instruction was executed
    have hfetch : e.fetch = x.before.fetch := by
      unfold fetch
      rw [hprogram, hsettings, h.program.1, h.program.2]
    rw [hfetch]
    exact hsucceeds.fetched
  · intro x hx
    exact (h.succeeds x hx).1.exists_target
  · intro hhalts
    exact step_of_no_execution (execution?_eq_none hhalts)
  · intro line count hline
    rw [lines_respond_of_backtrace e hline, backtraceReport, hentries, ← List.map_take,
      List.take_take, ← List.map_reverse, List.map_map]
    rfl

/-- **The history is a window on the run.** In every state that drives reach, it shows the
last instructions executed with success, in order, each with a program counter whose word
still resolves to it, and each program counter is the one that the instruction before it
has left, past it or at the target of its branch or jump. Every step that succeeds with an
instruction counts, one that fails or halts the run adds nothing, and a backtrace lists the
end of the history. Visits of the debugger and runs, also those that are let go on first,
reach no other states. -/
theorem history_drive (settings : Settings) (program : List Word) (random : G)
    (actions : List Action) :
    let e₀ := start settings program random
    let e := e₀.drive actions
    Remembers settings.textBase (e₀.executions actions) e ∧
      (∀ x, e.execution? = some x ↔ x.before = e ∧ x.Succeeds) ∧
      (∀ input, ∃ more, (visit e input).emulator = e₀.drive (actions ++ more)) ∧
      ∀ s fuel input ending, run fuel { e with state := s } input = some ending →
        ∃ more, ending.emulator = e₀.drive (actions ++ more) := by
  intro e₀ e
  have hlogged : Logged (e₀.executions actions) e₀ e := logged_drive e₀ actions
  refine ⟨hlogged.remembers, fun x => execution?_eq_some_iff, fun input => ?_,
    fun s fuel input ending hrun => ?_⟩
  · obtain ⟨more, hmore⟩ := exists_drive_of_visit e input
    exact ⟨more, hmore.trans (drive_append e₀ actions more).symm⟩
  · obtain ⟨more, hmore⟩ := exists_drive_of_run hrun
    exact ⟨.set s :: more, hmore.trans (drive_append e₀ actions (.set s :: more)).symm⟩

/-- A loop of two instructions that is stepped, paused, stepped by the debugger and let go
on. -/
theorem history_drive_shift :
    let e : Emulator Replay := start { maxSteps := some 3 } [0x20080001, 0x08100000] ⟨#[], 0⟩
    (e.drive [.step, .set .paused, .line "s"]).history.toList.map (·.pc) = [0x400004, 0x400000] ∧
      (e.drive [.step, .set .paused, .line "s"]).pc = 0x400000 ∧
      (respond (e.drive [.step, .set .paused, .line "s"]) "bt 1").lines =
        ((e.executions [.step, .set .paused, .line "s"]).take 1).reverse.map (fun x =>
          s!"{location x.before.pc} {x.instruction.render}") ∧
      ∃ ending more, run 5 { e.drive [.step, .set .paused, .line "s"] with state := .running } [] =
          some ending ∧
        ending.emulator.steps = 3 ∧
        ending.emulator = e.drive ([.step, .set .paused, .line "s"] ++ more) := by
  intro e
  obtain ⟨hwindow, -, -, hruns⟩ := history_drive { maxSteps := some 3 }
    [0x20080001, 0x08100000] (⟨#[], 0⟩ : Replay) [.step, .set .paused, .line "s"]
  have hremembers : Remembers 0x400000 (e.executions [.step, .set .paused, .line "s"])
    (e.drive [.step, .set .paused, .line "s"]) := hwindow
  have hsteps : (e.drive [.step, .set .paused, .line "s"]).steps = 2 := by decide +kernel
  have hrun : (run 5 { e.drive [.step, .set .paused, .line "s"] with state := .running } []).map
      (·.emulator.steps) = some 3 := by
    decide +kernel
  obtain ⟨ending, hrun, hend⟩ := Option.map_eq_some_iff.1 hrun
  obtain ⟨more, hmore⟩ := hruns .running 5 [] ending hrun
  have hline := hremembers.backtrace "bt 1" 1 (by decide +kernel)
  rw [hsteps] at hline
  exact ⟨by decide +kernel, by decide +kernel, hline, ending, more, hrun, hend, hmore⟩

end Emulator

end TetrisMachine
