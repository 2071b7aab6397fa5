import TetrisMachine.Proofs.Debugger.Transparency

/-!
# Driving an emulator

An emulator is driven from outside by steps, by lines for the debugger, and by setting its
run state, which pauses a run or lets it go on. A visit of the debugger and a run do no
more than that. So the states that can be reached are those that drives reach, and what a
step keeps holds in all of them.

* `Emulator.act_of_steps`, `Emulator.act_of_not_steps`: an action is a step, or it sets the
  run state.
* `Emulator.drive_induction`: what a step keeps, every drive keeps.
* `Emulator.exists_drive_of_visit`, `Emulator.exists_drive_of_run`: visits and runs are
  drives.
-/

namespace TetrisMachine

open Debugger

/-- What is done to an emulator from outside. -/
inductive Action where
  | step
  /-- A line for the debugger. -/
  | line (text : String)
  /-- The run state is set. -/
  | set (state : RunState)
deriving DecidableEq, Repr

/-- Whether an action does a step. -/
def Action.Steps : Action → Prop
  | step => True
  | line text => requested text = some .step
  | set _ => False

instance : DecidablePred Action.Steps
  | .step => .isTrue trivial
  | .line text => inferInstanceAs (Decidable (requested text = some .step))
  | .set _ => .isFalse id

namespace Emulator

variable {G : Type} [RandomSource G] {e : Emulator G} {a : Action}

/-- The emulator after an action. -/
def act (e : Emulator G) : Action → Emulator G
  | .step => e.step.1
  | .line text => (respond e text).emulator
  | .set state => { e with state := state }

/-- The emulator after one action and another. -/
def drive (e : Emulator G) (actions : List Action) : Emulator G :=
  actions.foldl act e

theorem drive_cons (e : Emulator G) (a : Action) (actions : List Action) :
    e.drive (a :: actions) = (e.act a).drive actions := rfl

theorem drive_append (e : Emulator G) (actions more : List Action) :
    e.drive (actions ++ more) = (e.drive actions).drive more :=
  List.foldl_append

/-- An action that does a step does nothing else. -/
theorem act_of_steps (h : a.Steps) : e.act a = e.step.1 := by
  cases a with
  | step => rfl
  | line text =>
    have htext : requested text = some .step := h
    rw [act, emulator_respond, htext]
  | set state => exact absurd h id

/-- An action that does no step sets the run state or leaves it, and does nothing else. -/
theorem act_of_not_steps (h : ¬ a.Steps) : ∃ s, e.act a = { e with state := s } := by
  cases a with
  | step => exact absurd trivial h
  | line text =>
    have htext : requested text ≠ some .step := h
    have heq := emulator_respond_eq e text
    rw [if_neg htext] at heq
    exact ⟨_, heq⟩
  | set state => exact ⟨state, rfl⟩

/-- **What steps and setting the run state keep holds after every drive.** -/
theorem drive_induction {P : Emulator G → Prop} (hstep : ∀ x : Emulator G, P x → P x.step.1)
    (hset : ∀ (x : Emulator G) s, P x → P { x with state := s }) (h : P e)
    (actions : List Action) : P (e.drive actions) := by
  induction actions generalizing e with
  | nil => exact h
  | cons a actions ih =>
    rw [drive_cons]
    apply ih
    by_cases ha : a.Steps
    · rw [act_of_steps ha]
      exact hstep e h
    · obtain ⟨s, hs⟩ := act_of_not_steps (e := e) ha
      rw [hs]
      exact hset e s h

/-- A drive does not move the program. -/
theorem program_drive (e : Emulator G) (actions : List Action) :
    (e.drive actions).program = e.program ∧ (e.drive actions).settings = e.settings := by
  refine drive_induction (P := fun x => x.program = e.program ∧ x.settings = e.settings)
    (fun x hx => ?_) (fun x s hx => hx) ⟨rfl, rfl⟩ actions
  rw [program_step, settings_step]
  exact hx

/-- **A visit of the debugger is a drive.** -/
theorem exists_drive_of_visit (e : Emulator G) (input : List String) :
    ∃ actions, (visit e input).emulator = e.drive actions := by
  change ∃ actions, (converse e input).emulator = e.drive actions
  induction input generalizing e with
  | nil => exact ⟨[], rfl⟩
  | cons line rest ih =>
    rw [converse]
    split
    · exact ⟨[.line line], rfl⟩
    · obtain ⟨actions, h⟩ := ih (respond e line).emulator
      exact ⟨.line line :: actions, h⟩

/-- **A run is a drive**, if it ends. -/
theorem exists_drive_of_run {fuel : Nat} {input : List String} {ending : Ending G}
    (h : run fuel e input = some ending) : ∃ actions, ending.emulator = e.drive actions := by
  have hends : EndsIn ending.emulator e input := .of_run h
  clear h
  induction hends with
  | halted => exact ⟨[], rfl⟩
  | running _ _ ih =>
    obtain ⟨actions, hactions⟩ := ih
    exact ⟨.step :: actions, hactions⟩
  | @paused e input _ _ ih =>
    obtain ⟨before, hbefore⟩ := exists_drive_of_visit e input
    obtain ⟨actions, hactions⟩ := ih
    rw [hbefore] at hactions
    exact ⟨before ++ actions, hactions.trans (drive_append e before actions).symm⟩

end Emulator

end TetrisMachine
