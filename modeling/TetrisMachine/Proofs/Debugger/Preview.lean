import TetrisMachine.Proofs.Emulator.Ending

/-!
# The debugger's preview

Before it reads a line the debugger shows what the next step will meet. The preview and the step
look at the same word, so an instruction and a word that cannot be decoded are shown as the step
treats them. Where there is no word the step tells the end of the program, where it succeeds,
from other places, where it fails. The preview does not, and shows the end of the program at all
of them.

* `Preview.Foretells`: what a preview says of the next step.
* `foretells_iff`: the preview says what the next step does, and no other one does.
* `prompt_eq_endOfProgram_iff`: when the end of the program is printed.
* `preview_step`: the preview and the step.
-/

namespace TetrisMachine

/-- An instruction that was executed is the newest of the history. -/
theorem Emulator.newest_advance {G : Type} (e : Emulator G) (i : Instruction) (cpu : Cpu G)
    (pc : Word) : (e.advance i cpu pc).history.toList.head? = some ⟨e.pc, i⟩ := by
  rw [advance, Window.toList_record]
  rfl

namespace Debugger

open Emulator

variable {G : Type}

/-! ### The lines of a preview -/

/-- The line for the end of the program is the line of no other preview. -/
theorem Preview.report_eq_endOfProgram_iff {pc : Word} {p : Preview} :
    p.report pc = [s!"{location pc} end of program"] ↔ p = .endOfProgram := by
  cases p with
  | instruction i => simp [report]
  | undecodable cause =>
    simp only [report, List.cons.injEq, and_true, reduceCtorEq, iff_false]
    intro h
    have hchars := congrArg String.toList h
    simp only [String.toList_append, List.append_assoc, List.append_cancel_left_eq] at hchars
    cases hchars
  | endOfProgram => simp [report]

theorem prompt_eq_endOfProgram_iff {e : Emulator G} :
    prompt e = ["", s!"{location e.pc} end of program"] ↔ preview e = .endOfProgram := by
  rw [prompt, List.cons.injEq, Preview.report_eq_endOfProgram_iff]
  simp

variable [RandomSource G] {e : Emulator G} {p p' : Preview}

/-- What is printed in a visit begins with the prompt. -/
theorem prompt_prefix_visit (e : Emulator G) (input : List String) :
    banner :: prompt e <+: (visit e input).transcript := by
  refine List.cons_prefix_cons.2 ⟨rfl, ?_⟩
  cases input with
  | nil => exact List.prefix_refl _
  | cons line rest =>
    rw [converse]
    split
    · exact List.prefix_append _ _
    · exact (List.prefix_append _ _).trans (List.prefix_append _ _)

/-! ### What a preview says -/

/-- What a preview says of the next step. -/
def Preview.Foretells (e : Emulator G) : Preview → Prop
  | instruction i =>
    (∃ cpu pc, (i.perform .counter).run (e.cpu, e.pc + 4) = .ok () (cpu, pc) ∧
      e.step = (e.advance i cpu pc, .ok ())) ∨
    ∃ cause, (i.perform .counter).run (e.cpu, e.pc + 4) = .error cause (e.cpu, e.pc + 4) ∧
      e.step = (e.halt, .error (.failed e.pc i cause))
  | undecodable cause => ∃ word, e.step = (e.halt, .error (.undecodable e.pc word cause))
  | endOfProgram => e.step = (e.halt, .ok ()) ∨ e.step = (e.halt, .error (.outside e.pc))

/-- The preview that says what a step has done. -/
def Preview.ofStep : Emulator G × Except StepError Unit → Preview
  | (_, .error (.failed _ i _)) => instruction i
  | (_, .error (.undecodable _ _ cause)) => undecodable cause
  | (_, .error (.outside _)) => endOfProgram
  | (e, .ok ()) =>
    if e.state = .halted then endOfProgram
    else e.history.toList.head?.elim endOfProgram (instruction ·.instruction)

theorem Preview.Foretells.ofStep_eq (h : p.Foretells e) (hs : e.state ≠ .halted) :
    ofStep e.step = p := by
  cases p with
  | instruction i =>
    rcases h with ⟨cpu, pc, -, h⟩ | ⟨cause, -, h⟩
    · have hs' : (e.advance i cpu pc).state ≠ .halted := hs
      rw [h, ofStep, if_neg hs', newest_advance]
      rfl
    · rw [h, ofStep]
  | undecodable cause =>
    obtain ⟨word, h⟩ := h
    rw [h, ofStep]
  | endOfProgram =>
    rcases h with h | h
    · have hs' : e.halt.state = .halted := rfl
      rw [h, ofStep, if_pos hs']
    · rw [h, ofStep]

/-- **The preview foretells the next step.** -/
theorem foretells_preview (hs : e.state ≠ .halted) (hl : ¬ e.AtLimit) :
    (preview e).Foretells e := by
  unfold preview
  cases hfetch : e.fetch e.pc with
  | none =>
    by_cases hend : e.pc = e.endAddress
    · exact .inl (step_of_stop hs (plan_eq_stop_ok_iff.2 (.inr ⟨hend, hfetch⟩)))
    · exact .inr (step_of_stop hs (plan_eq_stop_error_iff.2 ⟨hl, .outside hfetch hend⟩))
  | some word =>
    dsimp only
    cases hresolve : instructionSet.resolve word with
    | error cause =>
      have hdecode := Catalog.resolve_eq_error_iff.1 hresolve
      exact ⟨word, step_of_stop hs (plan_eq_stop_error_iff.2 ⟨hl, .undecodable hfetch hdecode⟩)⟩
    | ok i =>
      cases hrun : (i.perform .counter).run (e.cpu, e.pc + 4) with
      | error cause s =>
        obtain rfl := Instruction.perform_atomic _ _ _ _ _ hrun
        exact .inr ⟨cause, hrun, step_of_stop hs
          (plan_eq_stop_error_iff.2 ⟨hl, .failed hfetch hresolve hrun⟩)⟩
      | ok u s =>
        obtain ⟨op, hop, hf, hleft⟩ := Instruction.perform_eq_ok_iff.1 hrun
        have hplan := plan_eq_execute_iff.2 ⟨hl, word, hfetch, hresolve, hop, hf⟩
        rw [Delegate.follow_counter] at hleft
        subst hleft
        exact .inl ⟨_, _, hrun, by rw [step_eq hs, hplan]; rfl⟩

/-- **The preview says what the next step does, and no other preview does.** -/
theorem foretells_iff (hs : e.state ≠ .halted) (hl : ¬ e.AtLimit) :
    p.Foretells e ↔ preview e = p := by
  have h := foretells_preview hs hl
  constructor
  · intro hp
    rw [← hp.ofStep_eq hs, h.ofStep_eq hs]
  · rintro rfl
    exact h

/-- **The preview and the step.** A paused emulator below its limit shows an instruction if the
next step executes it or fails in executing it, and if it is executed it is the newest in the
history. It shows why a word cannot be decoded if the step fails for that. It shows the end of
the program if the step ends the run with success, but also if the step fails because the program
counter is outside the program. So the end of the program that is printed is the end of the run
unless the program counter is outside. -/
theorem preview_step (e : Emulator G) (hs : e.state = .paused) (hl : ¬ e.AtLimit) :
    (∀ input, banner :: "" :: (preview e).report e.pc <+: (visit e input).transcript) ∧
    (∀ i, preview e = .instruction i ↔
      (∃ cpu pc, (i.perform .counter).run (e.cpu, e.pc + 4) = .ok () (cpu, pc) ∧
        e.step = (e.advance i cpu pc, .ok ())) ∨
      ∃ cause, (i.perform .counter).run (e.cpu, e.pc + 4) = .error cause (e.cpu, e.pc + 4) ∧
        e.step = (e.halt, .error (.failed e.pc i cause))) ∧
    (∀ i cpu pc, e.step = (e.advance i cpu pc, .ok ()) →
      e.step.1.history.toList.head? = some ⟨e.pc, i⟩) ∧
    (∀ cause, preview e = .undecodable cause ↔
      ∃ word, e.step = (e.halt, .error (.undecodable e.pc word cause))) ∧
    (preview e = .endOfProgram ↔
      e.step = (e.halt, .ok ()) ∨ e.step = (e.halt, .error (.outside e.pc))) ∧
    ((prompt e = ["", s!"{location e.pc} end of program"] ↔ e.step = (e.halt, .ok ())) ↔
      ¬ e.Explains (.outside e.pc)) := by
  have hne : e.state ≠ .halted := by simp [hs]
  refine ⟨prompt_prefix_visit e, fun i => (foretells_iff hne hl).symm, fun i cpu pc h => ?_,
    fun cause => (foretells_iff hne hl).symm, (foretells_iff hne hl).symm, ?_⟩
  · rw [h]
    exact newest_advance e i cpu pc
  · have houtside : e.Explains (.outside e.pc) ↔ e.step = (e.halt, .error (.outside e.pc)) := by
      simp [step_eq_error_iff, plan_eq_stop_error_iff, hne, hl]
    rw [prompt_eq_endOfProgram_iff, ← foretells_iff hne hl, houtside]
    constructor
    · intro h hout
      have hok := h.1 (.inr hout)
      rw [hout] at hok
      cases hok
    · exact fun h => ⟨fun hend => hend.resolve_right h, .inl⟩

/-- A sum, and the end of the program. -/
theorem preview_step_harddrop :
    let e : Emulator Replay := { start {} [0x20080001] ⟨#[], 0⟩ with state := .paused }
    let i := Mnemonic.harddrop.instruction [8, 0, 1]
    preview e = .instruction i ∧ (∃ cpu pc, e.step = (e.advance i cpu pc, .ok ())) ∧
      (e.after 1).pc = 0x400004 ∧ preview (e.after 1) = .endOfProgram ∧
      (e.after 1).step = ((e.after 1).halt, .ok ()) := by
  intro e i
  obtain ⟨-, hinstruction, -⟩ := preview_step e rfl (by decide)
  obtain ⟨-, -, -, -, hend, -⟩ := preview_step (e.after 1) (by decide +kernel) (by decide +kernel)
  have hshown : preview e = .instruction i := by decide +kernel
  have hshown' : preview (e.after 1) = .endOfProgram := by decide +kernel
  have hok : e.step.2 = .ok () := by decide +kernel
  have hok' : (e.after 1).step.2 = .ok () := by decide +kernel
  refine ⟨hshown, ?_, by decide +kernel, hshown', ?_⟩
  · rcases (hinstruction i).1 hshown with ⟨cpu, pc, -, hstep⟩ | ⟨cause, -, hstep⟩
    · exact ⟨cpu, pc, hstep⟩
    · rw [hstep] at hok
      cases hok
  · rcases hend.1 hshown' with hstep | hstep
    · exact hstep
    · rw [hstep] at hok'
      cases hok'

/-- After a jump out of the program the end of the program is printed, and the step fails. -/
theorem preview_ne_step :
    let e := ({ start {} [0x08000100] ⟨#[], 0⟩ with state := .paused } : Emulator Replay).after 1
    e.state = .paused ∧ ¬ e.AtLimit ∧ e.pc = 0x400 ∧
      prompt e = ["", s!"{location e.pc} end of program"] ∧
      e.step = (e.halt, .error (.outside 0x400)) := by
  intro e
  have hs : e.state = .paused := by decide +kernel
  have hplan : e.plan = .stop (.error (.outside 0x400)) := by decide +kernel
  have hpreview : preview e = .endOfProgram := by decide +kernel
  exact ⟨hs, by decide +kernel, by decide +kernel, prompt_eq_endOfProgram_iff.2 hpreview,
    step_of_stop (by simp [hs]) hplan⟩

end Debugger

end TetrisMachine
