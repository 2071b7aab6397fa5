import TetrisMachine.Debugger.Session
import TetrisMachine.Proofs.Debugger.Lines
import TetrisMachine.Proofs.Emulator.Failure

/-!
# The debugger is transparent

Whatever lines the debugger is given, the machine it leaves is the one that so many
steps leave as it was asked for; only the run state is its own. So a run that is
stepped, inspected and let go on ends where it ends without the debugger.

* `emulator_respond`: what a line does to the emulator.
* `getElem?_visited`: the states that a visit goes through.
* `eq_visit_of_getElem?_visited`, `visit_eq_visited`: they are those of the debugger.
* `EndsIn.of_run`, `EndsIn.exists_run`: where a run ends, without a bound on its length.
* `endsIn_append`: a run that was paused ends like one that was not.
* `debugger_transparent`: what lines ask for, and what that does to a run.
-/

namespace TetrisMachine.Debugger

open Emulator

/-- The number of lines that ask for a step. -/
def stepCount (lines : List String) : Nat :=
  lines.countP (requested · = some .step)

theorem stepCount_cons (line : String) (lines : List String) :
    stepCount (line :: lines) = stepCount lines + if requested line = some .step then 1 else 0 := by
  simp [stepCount, List.countP_cons]

variable {G : Type} [RandomSource G] {e e' x y : Emulator G} {line : String}
  {input rest : List String}

/-- The states in which the debugger reads a line, and the one in which it is left. -/
def visited (e : Emulator G) : List String → List (Emulator G)
  | [] => [e]
  | line :: rest =>
    e :: if (respond e line).leave then [(respond e line).emulator]
      else visited (respond e line).emulator rest

theorem emulator_perform (e : Emulator G) (request : Request) :
    (perform e request).emulator =
      match request with
      | .step => e.step.1
      | .resume => { e with state := .running }
      | .halt => e.halt
      | _ => e := by
  cases request with
  | step =>
    rcases h : e.step with ⟨e', result⟩
    simp only [perform, h]
    cases result <;> rfl
  | _ => rfl

theorem leave_perform (e : Emulator G) (request : Request) :
    (perform e request).leave = true ↔
      request = .resume ∨ request = .halt ∨ request = .quit := by
  cases request with
  | step =>
    rcases h : e.step with ⟨e', result⟩
    simp only [perform, h]
    cases result <;> simp
  | _ => simp [perform]

/-- **A line that asks for a step does one**, one that asks to go on or to halt sets the
run state, and every other line leaves the emulator as it is. -/
theorem emulator_respond (e : Emulator G) (line : String) :
    (respond e line).emulator =
      match requested line with
      | some .step => e.step.1
      | some .resume => { e with state := .running }
      | some .halt => e.halt
      | _ => e := by
  unfold respond requested
  cases Request.ofLine line.toList with
  | error error => rfl
  | ok request =>
    cases request with
    | none => rfl
    | some request => exact (emulator_perform e request).trans (by cases request <;> rfl)

/-- The debugger is left on request and when the run has ended. -/
theorem leave_respond (e : Emulator G) (line : String) :
    (respond e line).leave = true ↔
      requested line = some .resume ∨ requested line = some .halt ∨ requested line = some .quit ∨
        (respond e line).emulator.state = .halted := by
  unfold respond requested
  cases Request.ofLine line.toList with
  | error error => simp
  | ok request =>
    cases request with
    | none => simp
    | some request =>
      dsimp only
      rw [Bool.or_eq_true, decide_eq_true_iff, leave_perform]
      simp only [Option.some.injEq, or_assoc]

/-- A line changes the machine as a step does or not at all. Only the run state may
be set besides. -/
theorem emulator_respond_eq (e : Emulator G) (line : String) :
    (respond e line).emulator =
      { e.after (if requested line = some .step then 1 else 0) with
        state := (respond e line).emulator.state } := by
  rw [emulator_respond]
  rcases requested line with - | request
  · rfl
  · cases request <;> rfl

/-- A line that inspects, is blank or is wrong, or leaves the debugger and no more. -/
theorem emulator_respond_of_idle (hstep : requested line ≠ some .step)
    (hresume : requested line ≠ some .resume) (hhalt : requested line ≠ some .halt) :
    (respond e line).emulator = e := by
  rw [emulator_respond]
  rcases hr : requested line with - | request
  · rfl
  · cases request with
    | step => exact absurd hr hstep
    | resume => exact absurd hr hresume
    | halt => exact absurd hr hhalt
    | _ => rfl

/-- A line that does not leave the debugger does not set the run state. -/
theorem emulator_respond_of_stay (h : (respond e line).leave = false) :
    (respond e line).emulator = e.after (if requested line = some .step then 1 else 0) := by
  rw [← Bool.not_eq_true, leave_respond] at h
  rw [emulator_respond]
  rcases hr : requested line with - | request
  · rfl
  · cases request with
    | resume | halt => simp [hr] at h
    | _ => rfl

/-- A line that does not leave the debugger leaves the run paused. -/
theorem state_respond_of_stay (he : e.state = .paused) (h : (respond e line).leave = false) :
    (respond e line).emulator.state = .paused := by
  have hne : (respond e line).emulator.state ≠ .halted := fun hh =>
    absurd ((leave_respond e line).2 (.inr (.inr (.inr hh)))) (by simp [h])
  rw [emulator_respond_of_stay h] at hne ⊢
  split at hne
  · rw [if_pos ‹_›]
    exact ((state_step e).resolve_right hne).trans he
  · rw [if_neg ‹_›]
    exact he

/-- **The states that the debugger goes through** are those that the steps asked for
leave. Only the last may have another run state. -/
theorem getElem?_visited {k : Nat} (h : (visited e input)[k]? = some x) :
    x = { e.after (stepCount (input.take k)) with state := x.state } ∧
      (k + 1 < (visited e input).length → x = e.after (stepCount (input.take k))) := by
  induction input generalizing e k with
  | nil =>
    cases k with
    | zero =>
      cases h
      exact ⟨rfl, fun _ => rfl⟩
    | succ k => cases h
  | cons line rest ih =>
    cases k with
    | zero =>
      cases h
      exact ⟨rfl, fun _ => rfl⟩
    | succ k =>
      rw [List.take_succ_cons, stepCount_cons, Nat.add_comm, ← after_after]
      cases hl : (respond e line).leave with
      | true =>
        simp only [visited, hl, if_true] at h ⊢
        cases k with
        | zero =>
          cases h
          exact ⟨emulator_respond_eq e line, fun hk => absurd hk (by simp)⟩
        | succ k => cases h
      | false =>
        simp only [visited, hl, Bool.false_eq_true, if_false, List.getElem?_cons_succ] at h
        rw [← emulator_respond_of_stay hl]
        refine ⟨(ih h).1, fun hk => (ih h).2 ?_⟩
        simpa [visited, hl] using hk

/-- The states that the debugger goes through are those in which it is left if the
input ends. -/
theorem eq_visit_of_getElem?_visited {k : Nat} (h : (visited e input)[k]? = some x) :
    x = (visit e (input.take k)).emulator := by
  change x = (converse e (input.take k)).emulator
  induction input generalizing e k with
  | nil =>
    cases k with
    | zero =>
      cases h
      rfl
    | succ k => cases h
  | cons line rest ih =>
    cases k with
    | zero =>
      cases h
      rfl
    | succ k =>
      cases hl : (respond e line).leave with
      | true =>
        simp only [visited, hl, if_true] at h
        cases k with
        | zero =>
          cases h
          simp only [List.take_succ_cons, converse, hl, if_true]
        | succ k => cases h
      | false =>
        simp only [visited, hl, Bool.false_eq_true, if_false, List.getElem?_cons_succ] at h
        simp only [List.take_succ_cons, converse, hl, Bool.false_eq_true, if_false]
        exact ih h

/-- There is a first state and hence a last one. -/
theorem visited_ne_nil (e : Emulator G) (input : List String) : visited e input ≠ [] := by
  cases input <;> simp [visited]

/-- The debugger is left in the last state visited, with the lines that were not
read. -/
theorem visit_eq_visited (e : Emulator G) (input : List String) :
    (visited e input).getLast? = some (visit e input).emulator ∧
      input.drop ((visited e input).length - 1) = (visit e input).rest := by
  change _ = some (converse e input).emulator ∧ _ = (converse e input).rest
  induction input generalizing e with
  | nil => exact ⟨rfl, rfl⟩
  | cons line rest ih =>
    cases hl : (respond e line).leave with
    | true => simp [visited, converse, hl]
    | false =>
      obtain ⟨hlast, hrest⟩ := ih (respond e line).emulator
      have hlength := List.length_pos_iff.2 (visited_ne_nil (respond e line).emulator rest)
      obtain ⟨n, hn⟩ := Nat.exists_eq_add_one.2 hlength
      rw [hn] at hrest
      simp only [visited, converse, hl, Bool.false_eq_true, if_false, List.getLast?_cons,
        List.length_cons, hlast, hn]
      exact ⟨rfl, hrest⟩

/-! ### Runs that are debugged -/

/-- The run with these lines for the debugger ends in the state `x`. -/
inductive EndsIn (x : Emulator G) : Emulator G → List String → Prop
  | halted {input : List String} : x.state = .halted → EndsIn x x input
  | running {e : Emulator G} {input : List String} :
    e.state = .running → EndsIn x e.step.1 input → EndsIn x e input
  | paused {e : Emulator G} {input : List String} :
    e.state = .paused → EndsIn x (visit e input).emulator (visit e input).rest → EndsIn x e input

theorem run_of_halted (h : e.state = .halted) (fuel : Nat) (input : List String) :
    run (fuel + 1) e input = some ⟨⟨e, input, []⟩, .ok ()⟩ := by
  rw [run, h]

theorem run_of_step_ok (hs : e.state = .running) (h : e.step = (e', .ok ())) (fuel : Nat)
    (input : List String) : run (fuel + 1) e input = run fuel e' input := by
  rw [run, hs, h]

theorem run_of_paused (h : e.state = .paused) (fuel : Nat) (input : List String) :
    run (fuel + 1) e input =
      (run fuel (visit e input).emulator (visit e input).rest).map fun ending =>
        { ending with transcript := (visit e input).transcript ++ ending.transcript } := by
  rw [run, h]

theorem endsIn_of_halted (h : e.state = .halted) : EndsIn x e input ↔ x = e := by
  constructor
  · rintro (_ | ⟨hs, -⟩ | ⟨hs, -⟩)
    · rfl
    · cases h.symm.trans hs
    · cases h.symm.trans hs
  · rintro rfl
    exact .halted h

theorem endsIn_of_running (h : e.state = .running) :
    EndsIn x e input ↔ EndsIn x e.step.1 input := by
  refine ⟨?_, .running h⟩
  rintro (hs | ⟨-, hx⟩ | ⟨hs, -⟩)
  · cases h.symm.trans hs
  · exact hx
  · cases h.symm.trans hs

theorem endsIn_of_paused (h : e.state = .paused) :
    EndsIn x e input ↔ EndsIn x (visit e input).emulator (visit e input).rest := by
  refine ⟨?_, .paused h⟩
  rintro (hs | ⟨hs, -⟩ | ⟨-, hx⟩)
  · cases h.symm.trans hs
  · cases h.symm.trans hs
  · exact hx

theorem EndsIn.of_run {fuel : Nat} {ending : Ending G} (h : run fuel e input = some ending) :
    EndsIn ending.emulator e input := by
  induction fuel generalizing e input ending with
  | zero => cases h
  | succ fuel ih =>
    cases hs : e.state with
    | halted =>
      rw [run_of_halted hs] at h
      cases h
      exact .halted hs
    | running =>
      refine .running hs ?_
      rcases hstep : e.step with ⟨e', error | ⟨⟩⟩
      · obtain ⟨-, -, rfl⟩ := step_eq_error_iff.1 hstep
        rw [run_of_step_error hs hstep] at h
        cases h
        exact .halted rfl
      · rw [run_of_step_ok hs hstep] at h
        exact ih h
    | paused =>
      rw [run_of_paused hs, Option.map_eq_some_iff] at h
      obtain ⟨ending, hrun, rfl⟩ := h
      exact .paused hs (ih hrun : EndsIn ending.emulator _ _)

theorem EndsIn.exists_run (h : EndsIn x e input) :
    ∃ fuel ending, run fuel e input = some ending ∧ ending.emulator = x := by
  induction h with
  | halted hs => exact ⟨1, _, run_of_halted hs 0 _, rfl⟩
  | @running e input hs hx ih =>
    rcases hstep : e.step with ⟨e', error | ⟨⟩⟩
    · obtain ⟨-, -, rfl⟩ := step_eq_error_iff.1 hstep
      rw [hstep, endsIn_of_halted rfl] at hx
      exact ⟨1, _, run_of_step_error hs hstep 0 input, hx.symm⟩
    · rw [hstep] at ih
      obtain ⟨fuel, ending, hrun, hending⟩ := ih
      exact ⟨fuel + 1, ending, (run_of_step_ok hs hstep fuel input).trans hrun, hending⟩
  | @paused e input hs _ ih =>
    obtain ⟨fuel, ending, hrun, hending⟩ := ih
    have hmap := congrArg (Option.map fun ending : Ending G =>
      { ending with transcript := (visit e input).transcript ++ ending.transcript }) hrun
    exact ⟨fuel + 1, _, (run_of_paused hs fuel input).trans hmap, hending⟩

/-- A run ends in one state. -/
theorem EndsIn.eq (hx : EndsIn x e input) (hy : EndsIn y e input) : y = x := by
  induction hx with
  | halted h => exact (endsIn_of_halted h).1 hy
  | running h _ ih => exact ih ((endsIn_of_running h).1 hy)
  | paused h _ ih => exact ih ((endsIn_of_paused h).1 hy)

/-- A run ends with the run state halted. -/
theorem EndsIn.state_eq (hx : EndsIn x e input) : x.state = .halted := by
  induction hx with
  | halted h => exact h
  | running _ _ ih => exact ih
  | paused _ _ ih => exact ih

/-- A run that is not paused does not read a line. -/
theorem EndsIn.of_input (hx : EndsIn x e input) (h : e.state ≠ .paused) (script : List String) :
    EndsIn x e script := by
  induction hx with
  | halted hs => exact .halted hs
  | @running e input hs _ ih =>
    refine .running hs (ih ?_)
    rcases state_step e with hstep | hstep
    · simp [hstep, hs]
    · simp [hstep]
  | paused hs => exact absurd hs h

theorem endsIn_input_iff (h : e.state ≠ .paused) (input script : List String) :
    EndsIn x e input ↔ EndsIn x e script :=
  ⟨fun hx => hx.of_input h script, fun hx => hx.of_input h input⟩

/-- The debugger reads one line after another, also when it is left and entered again. -/
theorem endsIn_cons (h : e.state = .paused) :
    EndsIn x e (line :: rest) ↔ EndsIn x (respond e line).emulator rest := by
  rw [endsIn_of_paused h]
  change EndsIn x (converse e (line :: rest)).emulator (converse e (line :: rest)).rest ↔ _
  cases hl : (respond e line).leave with
  | true => rw [converse, if_pos hl]
  | false =>
    rw [endsIn_of_paused (state_respond_of_stay h hl), converse, if_neg (by simp [hl])]
    rfl

/-- A run that is stepped and inspected and then let go on, or stepped to its end, ends
like the run that was not paused. -/
theorem endsIn_append {pre post : List String} (h : e.state = .paused)
    (hpre : ∀ line ∈ pre, requested line ≠ some .resume ∧ requested line ≠ some .halt)
    (hpost : (∃ line rest, post = line :: rest ∧ requested line = some .resume) ∨
      (e.after (stepCount pre)).state = .halted) :
    EndsIn x e (pre ++ post) ↔ EndsIn x { e with state := .running } input := by
  induction pre generalizing e with
  | nil =>
    rcases hpost with ⟨line, rest, rfl, hline⟩ | hhalted
    · have hrespond : (respond e line).emulator = { e with state := .running } := by
        rw [emulator_respond, hline]
      rw [List.nil_append, endsIn_cons h, hrespond]
      exact endsIn_input_iff (by simp) rest input
    · exact absurd (h.symm.trans hhalted) (by decide)
  | cons line pre ih =>
    obtain ⟨⟨hresume, hhalt⟩, hpre⟩ := List.forall_mem_cons.1 hpre
    rw [List.cons_append, endsIn_cons h]
    rw [stepCount_cons] at hpost
    by_cases hstep : requested line = some .step
    · have hrespond : (respond e line).emulator = e.step.1 := by
        rw [emulator_respond, hstep]
      have hrun : ({ e with state := .running } : Emulator G).step =
          (if e.step.1.state = .halted then e.step.1 else { e.step.1 with state := .running },
            e.step.2) :=
        step_setState (by decide) (by simp [h])
      rw [if_pos hstep, after_succ'] at hpost
      rw [hrespond, endsIn_of_running (e := { e with state := .running }) rfl, hrun]
      rcases state_step e with hstate | hstate
      · rw [h] at hstate
        rw [if_neg (by simp [hstate])]
        exact ih hstate hpre hpost
      · rw [if_pos hstate]
        exact endsIn_input_iff (by simp [hstate]) (pre ++ post) input
    · rw [if_neg hstep, Nat.add_zero] at hpost
      rw [emulator_respond_of_idle hstep hresume hhalt]
      exact ih h hpre hpost

/-- **The debugger is transparent.** A line asks for something if its first word abbreviates
a command that takes the others; a line that is blank or wrong asks for nothing. A line that
asks for a step does one, a line that asks to go on or to halt sets the run state, and any other
line changes nothing. So the debugger goes through the states that the steps asked for so far
leave, and is left in the last of them with the run state set. A paused run that is stepped
and inspected, also by entering the debugger again, until it is let go on or has ended, ends
with the state in which it ends when it is not paused. -/
theorem debugger_transparent (e : Emulator G) (h : e.state = .paused) :
    (∀ line, Classified line) ∧
    (∀ (x : Emulator G) (line : String), (respond x line).emulator =
      match requested line with
      | some .step => x.step.1
      | some .resume => { x with state := .running }
      | some .halt => { x with state := .halted }
      | _ => x) ∧
    (∀ input, (visited e input).getLast? = some (visit e input).emulator ∧
      input.drop ((visited e input).length - 1) = (visit e input).rest ∧
      ∀ k x, (visited e input)[k]? = some x → x = (visit e (input.take k)).emulator ∧
        x = { e.after (stepCount (input.take k)) with state := x.state } ∧
        (k + 1 < (visited e input).length → x = e.after (stepCount (input.take k)))) ∧
    ∀ fuel input ending, run fuel { e with state := .running } input = some ending →
      ending.emulator.state = .halted ∧
      ∀ pre post,
        (∀ line ∈ pre, requested line ≠ some .resume ∧ requested line ≠ some .halt) →
        ((∃ line rest, post = line :: rest ∧ requested line = some .resume) ∨
          (e.after (stepCount pre)).state = .halted) →
        (∃ fuel' ending', run fuel' e (pre ++ post) = some ending') ∧
        ∀ fuel' ending', run fuel' e (pre ++ post) = some ending' →
          ending'.emulator = ending.emulator := by
  refine ⟨classified, emulator_respond, fun input => ?_, fun fuel input ending hrun => ?_⟩
  · obtain ⟨hlast, hrest⟩ := visit_eq_visited e input
    exact ⟨hlast, hrest, fun k x hx => ⟨eq_visit_of_getElem?_visited hx, getElem?_visited hx⟩⟩
  · have hending := EndsIn.of_run hrun
    refine ⟨hending.state_eq, fun pre post hpre hpost => ?_⟩
    have hdebugged : EndsIn ending.emulator e (pre ++ post) :=
      (endsIn_append h hpre hpost).2 hending
    constructor
    · obtain ⟨fuel', ending', hrun', -⟩ := hdebugged.exists_run
      exact ⟨fuel', ending', hrun'⟩
    · intro fuel' ending' hrun'
      exact hdebugged.eq (EndsIn.of_run hrun')

/-- A run that is stepped and inspected, left and entered again, and let go on. -/
theorem debugger_transparent_quit :
    let e : Emulator Replay :=
      { start {} [0xf0000001, 0xf0000002] ⟨#[], 0⟩ with state := .paused }
    ∃ ending ending' fuel, run 4 { e with state := .running } [] = some ending ∧
      run fuel e (["s", "", "pr", "quit", "bt 2"] ++ ["c"]) = some ending' ∧
      ending.emulator.steps = 2 ∧ ending'.emulator = ending.emulator := by
  intro e
  obtain ⟨-, -, -, hruns⟩ := debugger_transparent e rfl
  have hsteps : (run 4 { e with state := .running } []).map (·.emulator.steps) = some 2 := by
    decide +kernel
  obtain ⟨ending, hrun, hsteps⟩ := Option.map_eq_some_iff.1 hsteps
  obtain ⟨-, hpaused⟩ := hruns 4 [] ending hrun
  obtain ⟨⟨fuel, ending', hrun'⟩, heq⟩ := hpaused ["s", "", "pr", "quit", "bt 2"] ["c"]
    (by decide +kernel) (.inl ⟨"c", [], rfl, by decide +kernel⟩)
  exact ⟨ending, ending', fuel, hrun, hrun', hsteps, heq fuel ending' hrun'⟩

end TetrisMachine.Debugger
