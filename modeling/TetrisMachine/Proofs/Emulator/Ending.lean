import TetrisMachine.Proofs.Emulator.Drive
import TetrisMachine.Proofs.Execution.Decoded
import TetrisMachine.Proofs.Execution.Target

/-!
# How runs end

A run goes on until a step is planned to stop it, and that step only halts it. So the
state in which a run ends still shows why: the limit is reached, the program counter has
reached the end of the program, or what stands at the program counter cannot be executed,
in one of three ways. From an aligned start the program counter stays aligned, so it is
never refused because it is not.

* `Emulator.plan_eq_stop_ok_iff`, `Emulator.plan_eq_stop_error_iff`: which steps stop a run.
* `Emulator.plan_of_run`: the last state of a run still plans to stop with its result.
* `Emulator.dvd_pc_drive`: the program counter stays aligned.
* `Emulator.run_explained`: how a run can end.
-/

namespace TetrisMachine

open Debugger

/-- Whether a run with this result has returned. A roll that finds no draw it can use goes
on for ever. -/
def Debugger.Ending.Returned {G : Type} (ending : Ending G) : Prop :=
  ∀ pc i, ending.result ≠ .error (.failed pc i .noRoll)

namespace Emulator

variable {G : Type} {e : Emulator G} {error : StepError}

/-- At an aligned address with no word the program has not begun or is over. -/
theorem outside_of_fetch_eq_none {a : Word} (hbase : 4 ∣ e.settings.textBase.toNat)
    (ha : 4 ∣ a.toNat) (h : e.fetch a = none) :
    a.toNat < e.settings.textBase.toNat ∨
      e.settings.textBase.toNat + 4 * e.program.size ≤ a.toNat := by
  by_cases hle : e.settings.textBase.toNat ≤ a.toNat
  -- the offset is aligned, so the word is missing because the program is too short
  · have hoffset : (a.toNat - e.settings.textBase.toNat) % 4 = 0 := by omega
    rw [fetch, if_pos hle] at h
    dsimp only at h
    rw [if_pos hoffset, Array.getElem?_eq_none_iff] at h
    omega
  · omega

variable [RandomSource G]

/-- The error that stands at the program counter. -/
inductive Explains (e : Emulator G) : StepError → Prop
  /-- There is no word, and the program counter is not at the end of the program. -/
  | outside : e.fetch e.pc = none → e.pc ≠ e.endAddress → Explains e (.outside e.pc)
  /-- The word cannot be decoded. -/
  | undecodable {word : Word} {cause : EncodingError} :
    e.fetch e.pc = some word → instructionSet.decode word = .error cause →
      Explains e (.undecodable e.pc word cause)
  /-- The instruction fails on the registers and the memory. -/
  | failed {word : Word} {i : Instruction} {fault : Fault} :
    e.fetch e.pc = some word → instructionSet.resolve word = .ok i →
      (i.perform .counter).run (e.cpu, e.pc + 4) = .error fault (e.cpu, e.pc + 4) →
      Explains e (.failed e.pc i fault)

/-- **The steps that end a run with success.** -/
theorem plan_eq_stop_ok_iff :
    e.plan = .stop (.ok ()) ↔ e.AtLimit ∨ e.pc = e.endAddress ∧ e.fetch e.pc = none := by
  unfold plan
  by_cases hl : e.AtLimit
  · simp [hl]
  rw [if_neg hl]
  cases e.fetch e.pc with
  | none => by_cases hend : e.pc = e.endAddress <;> simp [hl, hend]
  | some word =>
    dsimp only
    cases instructionSet.resolve word with
    | error cause => simp [hl]
    | ok i =>
      dsimp only
      cases i.operation with
      | error cause => simp [hl]
      | ok op =>
        dsimp only
        cases op.fault? e.cpu <;> simp [hl]

/-- An error that the state explains is what the next step answers, below the limit. -/
theorem Explains.plan_eq (h : e.Explains error) (hl : ¬ e.AtLimit) :
    e.plan = .stop (.error error) := by
  rw [plan, if_neg hl]
  cases h with
  | outside hfetch hend =>
    rw [hfetch]
    dsimp only
    rw [if_neg hend]
  | undecodable hfetch hdecode =>
    rw [hfetch]
    dsimp only
    rw [Catalog.resolve_eq_error_iff.2 hdecode]
  | failed hfetch hresolve hperform =>
    obtain ⟨hfault, -⟩ := Instruction.perform_eq_error_iff.1 hperform
    rw [hfetch]
    dsimp only
    rw [hresolve]
    dsimp only
    unfold Instruction.fault? at hfault
    split at hfault
    · next op hop =>
      rw [hop]
      dsimp only
      rw [hfault]
    · next cause hop =>
      cases hfault
      rw [hop]

theorem explains_of_plan_eq (h : e.plan = .stop (.error error)) :
    ¬ e.AtLimit ∧ e.Explains error := by
  unfold plan at h
  by_cases hl : e.AtLimit
  · rw [if_pos hl] at h
    cases h
  rw [if_neg hl] at h
  refine ⟨hl, ?_⟩
  split at h
  · next hfetch =>
    by_cases hend : e.pc = e.endAddress
    · rw [if_pos hend] at h
      cases h
    · rw [if_neg hend] at h
      cases h
      exact .outside hfetch hend
  · next word hfetch =>
    split at h
    · next cause hresolve =>
      cases h
      exact .undecodable hfetch (Catalog.resolve_eq_error_iff.1 hresolve)
    · next i hresolve =>
      have hfails (fault : Fault) (hfault : i.fault? e.cpu = some fault) :
          e.Explains (.failed e.pc i fault) :=
        .failed hfetch hresolve (Instruction.perform_eq_error_iff.2 ⟨hfault, rfl⟩)
      split at h
      · next cause hop =>
        cases h
        exact hfails cause (by rw [Instruction.fault?, hop])
      · next op hop =>
        split at h
        · next cause hf =>
          cases h
          refine hfails cause ?_
          rw [Instruction.fault?, hop]
          exact hf
        · cases h

/-- **The steps that end a run with an error.** -/
theorem plan_eq_stop_error_iff :
    e.plan = .stop (.error error) ↔ ¬ e.AtLimit ∧ e.Explains error :=
  ⟨explains_of_plan_eq, fun h => h.2.plan_eq h.1⟩

/-- The state explains one error at most. -/
theorem Explains.eq {error' : StepError} (h : e.Explains error) (h' : e.Explains error')
    (hl : ¬ e.AtLimit) : error' = error := by
  have hplan := (h'.plan_eq hl).symm.trans (h.plan_eq hl)
  cases hplan
  rfl

/-- **The last state of a run that was not paused still plans to stop with its result.** -/
theorem plan_of_run {fuel : Nat} {input : List String} {ending : Ending G}
    (h : run fuel e input = some ending) (hs : e.state = .running) :
    ending.emulator.plan = .stop ending.result := by
  induction fuel generalizing e with
  | zero => cases h
  | succ fuel ih =>
    have hne : e.state ≠ .halted := by simp [hs]
    cases hp : e.plan with
    | stop answer =>
      have hstep : e.step = (e.halt, answer) := step_of_stop hne hp
      cases answer with
      | error error =>
        rw [run_of_step_error hs hstep] at h
        cases h
        exact hp
      | ok =>
        rw [run_of_step_ok hs hstep] at h
        -- the run notices that it is halted when it goes on
        cases fuel with
        | zero => cases h
        | succ fuel =>
          rw [run_of_halted rfl] at h
          cases h
          exact hp
    | execute i op =>
      -- an instruction does not pause the run, so the debugger is never entered
      have hstep : e.step = (e.executed i op, .ok ()) := by rw [step_eq hne, hp]
      rw [run_of_step_ok hs hstep] at h
      exact ih h hs

/-- A run that fails has failed in a step. -/
theorem exists_step_of_run_error {fuel : Nat} {input : List String} {ending : Ending G}
    (h : run fuel e input = some ending) (herror : ending.result = .error error) :
    ∃ actions, (e.drive actions).step = (ending.emulator, .error error) := by
  induction fuel generalizing e input ending with
  | zero => cases h
  | succ fuel ih =>
    cases hs : e.state with
    | halted =>
      rw [run_of_halted hs] at h
      cases h
      cases herror
    | running =>
      rcases hstep : e.step with ⟨e', error' | ⟨⟩⟩
      · rw [run_of_step_error hs hstep] at h
        cases h
        cases herror
        exact ⟨[], hstep⟩
      · rw [run_of_step_ok hs hstep] at h
        obtain ⟨actions, hactions⟩ := ih h herror
        refine ⟨.step :: actions, ?_⟩
        rw [drive_cons, act, hstep]
        exact hactions
    | paused =>
      rw [run_of_paused hs, Option.map_eq_some_iff] at h
      obtain ⟨ending', hrun, rfl⟩ := h
      obtain ⟨before, hbefore⟩ := exists_drive_of_visit e input
      obtain ⟨actions, hactions⟩ := ih hrun herror
      rw [hbefore, ← drive_append] at hactions
      exact ⟨before ++ actions, hactions⟩

/-- What the state in which a run from `e` has ended says about its result. -/
structure Concludes (e x : Emulator G) (result : Except StepError Unit) : Prop where
  halted : x.state = .halted
  program : x.program = e.program ∧ x.settings = e.settings
  done : result = .ok () → x.AtLimit ∨ x.pc = x.endAddress ∧ x.fetch x.pc = none
  /-- One error and no other stands at the program counter. -/
  error : ∀ error, result = .error error →
    ¬ x.AtLimit ∧ ∀ error', x.Explains error' ↔ error' = error
  /-- An instruction that fails does so in arithmetic or in memory. -/
  fault : ∀ pc i fault, result = .error (.failed pc i fault) →
    ∃ op, i.Denotes op ∧ op.Raises fault

theorem concludes_of_run {fuel : Nat} {input : List String} {ending : Ending G}
    (h : run fuel e input = some ending) (hs : e.state = .running) (hr : ending.Returned) :
    Concludes e ending.emulator ending.result := by
  have hplan : ending.emulator.plan = .stop ending.result := plan_of_run h hs
  have herror (error : StepError) (hresult : ending.result = .error error) :
      ¬ ending.emulator.AtLimit ∧ ending.emulator.Explains error := by
    rw [hresult] at hplan
    exact plan_eq_stop_error_iff.1 hplan
  refine ⟨(EndsIn.of_run h).state_eq, ?_, ?_, ?_, ?_⟩
  · obtain ⟨actions, hactions⟩ := exists_drive_of_run h
    rw [hactions]
    exact program_drive e actions
  · intro hresult
    rw [hresult] at hplan
    exact plan_eq_stop_ok_iff.1 hplan
  · intro error hresult
    obtain ⟨hl, hexplains⟩ := herror error hresult
    refine ⟨hl, fun error' => ⟨fun h' => hexplains.eq h' hl, ?_⟩⟩
    rintro rfl
    exact hexplains
  · intro pc i fault hresult
    obtain ⟨-, hexplains⟩ := herror _ hresult
    cases hexplains with
    | failed hfetch hresolve hperform =>
      obtain ⟨op, hop, -⟩ := exists_operation_of_resolve hresolve
      obtain ⟨hfault, -⟩ := Instruction.perform_eq_error_iff.1 hperform
      rw [Instruction.fault?, hop] at hfault
      rcases Operation.fault?_eq_some hfault with hraises | ⟨rfl, -, -⟩
      · exact ⟨op, Instruction.operation_eq_ok_iff.1 hop, hraises⟩
      · exact absurd hresult (hr _ i)

/-- **A step keeps the program counter aligned.** -/
theorem dvd_pc_step (h : 4 ∣ e.pc.toNat) : 4 ∣ e.step.1.pc.toNat := by
  by_cases hs : e.state = .halted
  · rw [step_of_halted e hs]
    exact h
  rw [step_eq hs]
  cases e.plan with
  | stop answer => exact h
  | execute i op =>
    have hnext : 4 ∣ (e.pc + 4).toNat := by
      rw [BitVec.toNat_add, show (4 : Word).toNat = 4 from rfl]
      omega
    exact op.dvd_target_transfer e.cpu hnext

/-- The program counter stays aligned. -/
theorem dvd_pc_drive (h : 4 ∣ e.pc.toNat) (actions : List Action) :
    4 ∣ (e.drive actions).pc.toNat :=
  drive_induction (P := fun x => 4 ∣ x.pc.toNat) (fun _ => dvd_pc_step) (fun _ _ hx => hx) h actions

/-- **How a run can end.** A run that is not paused and returns ends halted, in a state that
explains its result: with success at the limit or at the end of the program, and otherwise
with the one error that stands at the program counter, which is that there is no word, that
the word cannot be decoded, or that the instruction fails in arithmetic or in memory. From
an aligned start every program counter is aligned, so one that is refused lies before the
program or past it. -/
theorem run_explained :
    (∀ (e : Emulator G) fuel input ending, e.state = .running →
      run fuel e input = some ending → ending.Returned →
        Concludes e ending.emulator ending.result) ∧
    ∀ (settings : Settings) (program : List Word) (random : G) (actions : List Action),
      4 ∣ settings.textBase.toNat →
        let e := (start settings program random).drive actions
        let Outside (pc : Word) := pc.toNat < settings.textBase.toNat ∨
          settings.textBase.toNat + 4 * program.length ≤ pc.toNat
        4 ∣ e.pc.toNat ∧ (∀ pc, e.Explains (.outside pc) → Outside pc) ∧
          ∀ fuel input ending pc, run fuel e input = some ending →
            ending.result = .error (.outside pc) → Outside pc := by
  refine ⟨fun e fuel input ending hs hrun hr => concludes_of_run hrun hs hr,
    fun settings program random actions hbase => ?_⟩
  have haligned (actions : List Action) :
      4 ∣ ((start settings program random).drive actions).pc.toNat :=
    dvd_pc_drive hbase actions
  have houtside (actions : List Action) (pc : Word)
      (h : ((start settings program random).drive actions).Explains (.outside pc)) :
      pc.toNat < settings.textBase.toNat ∨
        settings.textBase.toNat + 4 * program.length ≤ pc.toNat := by
    obtain ⟨hprogram, hsettings⟩ := program_drive (start settings program random) actions
    cases h with
    | outside hfetch hend =>
      have hrange := outside_of_fetch_eq_none (by rw [hsettings]; exact hbase)
        (haligned actions) hfetch
      rw [hprogram, hsettings] at hrange
      exact hrange
  refine ⟨haligned actions, houtside actions, fun fuel input ending pc hrun hresult => ?_⟩
  obtain ⟨more, hstep⟩ := exists_step_of_run_error hrun hresult
  rw [← drive_append] at hstep
  obtain ⟨-, hplan, -⟩ := step_eq_error_iff.1 hstep
  exact houtside (actions ++ more) pc (plan_eq_stop_error_iff.1 hplan).2

/-- A load from an odd address, and a jump to an address before the program. -/
theorem run_explained_next :
    (∃ ending : Ending Replay, run 3 (start {} [0x20080001, 0x8d090000] ⟨#[], 0⟩) [] = some ending ∧
      ending.result = .error
        (.failed 0x400004 (Mnemonic.next.instruction [9, 0, 8]) (.address 1 .misaligned)) ∧
      Concludes (start {} [0x20080001, 0x8d090000] ⟨#[], 0⟩) ending.emulator ending.result) ∧
    ∃ ending : Ending Replay, run 2 (start {} [0x08000100] ⟨#[], 0⟩) [] = some ending ∧
      ending.result = .error (.outside 0x400) ∧
      ((0x400 : Word).toNat < (0x400000 : Word).toNat ∨
        (0x400000 : Word).toNat + 4 * 1 ≤ (0x400 : Word).toNat) := by
  obtain ⟨hconcludes, haligned⟩ := run_explained (G := Replay)
  constructor
  · have hrun : (run 3 (start {} [0x20080001, 0x8d090000] (⟨#[], 0⟩ : Replay)) []).map (·.result) =
        some (.error (.failed 0x400004 (Mnemonic.next.instruction [9, 0, 8])
          (.address 1 .misaligned))) := by
      decide +kernel
    obtain ⟨ending, hrun, hresult⟩ := Option.map_eq_some_iff.1 hrun
    have hreturned : ending.Returned := by
      intro pc i
      rw [hresult]
      simp
    exact ⟨ending, hrun, hresult, hconcludes _ 3 [] ending rfl hrun hreturned⟩
  · have hrun : (run 2 (start {} [0x08000100] (⟨#[], 0⟩ : Replay)) []).map (·.result) =
        some (.error (.outside 0x400)) := by
      decide +kernel
    obtain ⟨ending, hrun, hresult⟩ := Option.map_eq_some_iff.1 hrun
    obtain ⟨-, -, houtside⟩ := haligned {} [0x08000100] (⟨#[], 0⟩ : Replay) [] (by decide)
    exact ⟨ending, hrun, hresult, houtside 2 [] ending 0x400 hrun hresult⟩

end Emulator

end TetrisMachine
