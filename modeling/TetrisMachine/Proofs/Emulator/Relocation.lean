import TetrisMachine.Proofs.Emulator.Step
import TetrisMachine.Proofs.Execution.Target
import TetrisMachine.Proofs.InstructionSet.Resolved
import TetrisMachine.Random.Replay

/-!
# Runs are independent of where the program lies

An emulator is relocated by a distance: the program and the program counter are moved
by it, and with them the addresses in the history. As long as both places lie in the
address space, and jumps stay in step because there are none or because the distance
is made of whole regions, a relocated emulator does what the other does.

* `Emulator.fetch_eq`: the program is seen at offsets from its base.
* `Emulator.step_relocate`: a step of a relocated emulator.
* `Emulator.start_relocate`: runs of one program at two bases.
-/

namespace TetrisMachine

/-- The window of the images of the entries. -/
def Window.map {α β : Type} {capacity : Nat} (f : α → β) (w : Window α capacity) :
    Window β capacity where
  recent := w.recent.map f
  older := w.older.map f
  count := w.count
  count_eq := by rw [List.length_map, w.count_eq]
  recent_lt := by rw [List.length_map]; exact w.recent_lt
  older_le := by rw [List.length_map]; exact w.older_le

theorem Window.map_record {α β : Type} {capacity : Nat} (f : α → β) (w : Window α capacity)
    (a : α) : (w.record a).map f = (w.map f).record (f a) := by
  unfold record
  by_cases h : w.count + 1 < capacity
  · have h' : (w.map f).count + 1 < capacity := h
    rw [dif_pos h, dif_pos h']
    rfl
  · have h' : ¬ (w.map f).count + 1 < capacity := h
    rw [dif_neg h, dif_neg h']
    rfl

theorem Window.toList_map {α β : Type} {capacity : Nat} (f : α → β) (w : Window α capacity) :
    (w.map f).toList = w.toList.map f := by
  rw [toList, toList, List.map_take, List.map_append]
  rfl

/-- An executed instruction at another place. -/
def Executed.relocate (d : Word) (x : Executed) : Executed :=
  { x with pc := x.pc + d }

/-- The same error at another place. -/
def StepError.relocate (d : Word) : StepError → StepError
  | outside pc => outside (pc + d)
  | undecodable pc word cause => undecodable (pc + d) word cause
  | failed pc i cause => failed (pc + d) i cause

/-- The same plan at another place. -/
def Plan.relocate (d : Word) : Plan → Plan
  | stop answer => stop (answer.mapError (·.relocate d))
  | execute i op => execute i op

namespace Emulator

variable {G : Type}

/-- The emulator with the program and the program counter moved by a distance. -/
def relocate (d : Word) (e : Emulator G) : Emulator G :=
  { e with
    settings := { e.settings with textBase := e.settings.textBase + d }
    pc := e.pc + d
    history := e.history.map (·.relocate d) }

/-- The program lies in the address space at both ends of the distance, and its jumps
go along: it has none, or the distance is made of whole regions. -/
structure Movable (e : Emulator G) (d : Word) : Prop where
  here : e.settings.textBase.toNat + 4 * e.program.size ≤ 0x100000000
  there : (e.settings.textBase + d).toNat + 4 * e.program.size ≤ 0x100000000
  jumps : (∀ w ∈ e.program, ∀ x, instructionSet.decode w = .ok x → x.mnemonic ≠ .shift) ∨
    0x10000000 ∣ d.toNat

variable {e : Emulator G} {d : Word}

/-- **The program is seen at the offsets from its base.** -/
theorem fetch_eq (h : e.settings.textBase.toNat + 4 * e.program.size ≤ 0x100000000) (a : Word) :
    e.fetch a =
      if (a - e.settings.textBase).toNat % 4 = 0
      then e.program[(a - e.settings.textBase).toNat / 4]? else none := by
  have ha := a.isLt
  unfold fetch
  by_cases hle : e.settings.textBase.toNat ≤ a.toNat
  · have ho : (a - e.settings.textBase).toNat = a.toNat - e.settings.textBase.toNat := by
      rw [BitVec.toNat_sub]
      omega
    rw [if_pos hle, ho]
  · -- below the base the offset wraps, beyond the end of the program
    have ho : e.program.size ≤ (a - e.settings.textBase).toNat / 4 := by
      rw [BitVec.toNat_sub]
      omega
    rw [if_neg hle, Array.getElem?_eq_none ho, ite_self]

theorem fetch_relocate (hm : e.Movable d) (a : Word) :
    (e.relocate d).fetch (a + d) = e.fetch a := by
  have hbase : (e.relocate d).settings.textBase = e.settings.textBase + d := rfl
  have hprogram : (e.relocate d).program = e.program := rfl
  have hsub : a + d - (e.settings.textBase + d) = a - e.settings.textBase := by bv_omega
  have hthere : (e.relocate d).settings.textBase.toNat + 4 * (e.relocate d).program.size ≤
      0x100000000 := hm.there
  rw [fetch_eq hm.here, fetch_eq hthere, hbase, hprogram, hsub]

theorem endAddress_relocate (e : Emulator G) (d : Word) :
    (e.relocate d).endAddress = e.endAddress + d := by
  change e.settings.textBase + d + _ = e.settings.textBase + _ + d
  rw [BitVec.add_assoc, BitVec.add_comm d, ← BitVec.add_assoc]
  rfl

/-- A program at another base is the one that is moved there. -/
theorem relocate_start (settings : Settings) (program : List Word) (random : G)
    (base base' : Word) :
    (start { settings with textBase := base } program random).relocate (base' - base) =
      start { settings with textBase := base' } program random := by
  have hbase : base + (base' - base) = base' := by bv_omega
  simp only [start, relocate, hbase]
  rfl

variable [RandomSource G]

theorem plan_relocate (hm : e.Movable d) : (e.relocate d).plan = e.plan.relocate d := by
  have hpc : (e.relocate d).pc = e.pc + d := rfl
  have hcpu : (e.relocate d).cpu = e.cpu := rfl
  have hlimit : (e.relocate d).AtLimit ↔ e.AtLimit := Iff.rfl
  unfold plan
  rw [hpc, hcpu, fetch_relocate hm, endAddress_relocate]
  by_cases hl : e.AtLimit
  · rw [if_pos hl, if_pos (hlimit.2 hl)]
    rfl
  rw [if_neg hl, if_neg (hl ∘ hlimit.1)]
  cases e.fetch e.pc with
  | none =>
    dsimp only
    by_cases hend : e.pc = e.endAddress
    · rw [if_pos hend, if_pos (congrArg (· + d) hend)]
      rfl
    · rw [if_neg hend, if_neg (hend ∘ (BitVec.add_left_inj d).1)]
      rfl
  | some word =>
    dsimp only
    cases instructionSet.resolve word with
    | error cause => rfl
    | ok i =>
      dsimp only
      cases i.operation with
      | error cause => rfl
      | ok op =>
        dsimp only
        cases op.fault? e.cpu <;> rfl

/-- The jump of a movable emulator is to a decoded target, over whole regions. -/
theorem Movable.target_lt (hm : e.Movable d) {i : Instruction} {op : Operation}
    (hp : e.plan = .execute i op) (target : Word) (hop : op = .shift target) :
    target.toNat < 0x4000000 ∧ 0x10000000 ∣ d.toNat := by
  obtain ⟨-, word, hfetch, hr, hi, -⟩ := plan_eq_execute_iff.1 hp
  subst hop
  refine ⟨target_lt_of_resolve hr hi, hm.jumps.resolve_left fun hnone => ?_⟩
  have hmem : word ∈ e.program := by
    rw [fetch_eq hm.here] at hfetch
    split at hfetch
    · exact Array.mem_of_getElem? hfetch
    · cases hfetch
  exact hnone word hmem _ (decode_of_resolve hr hi) rfl

theorem executed_relocate (hm : e.Movable d) {i : Instruction} {op : Operation}
    (hp : e.plan = .execute i op) :
    (e.relocate d).executed i op = (e.executed i op).relocate d := by
  have hpc : e.pc + d + 4 = e.pc + 4 + d := by
    rw [BitVec.add_assoc, BitVec.add_comm d, ← BitVec.add_assoc]
  have htarget := op.target_transfer_add e.cpu (e.pc + 4) d (hm.target_lt hp)
  have hhistory : (e.history.record ⟨e.pc, i⟩).map (·.relocate d) =
      (e.history.map (·.relocate d)).record ⟨e.pc + d, i⟩ := Window.map_record _ _ _
  simp only [executed, advance, relocate, hpc, htarget, hhistory]

/-- **A relocated emulator does the same step at its place.** -/
theorem step_relocate (hm : e.Movable d) :
    (e.relocate d).step = (e.step.1.relocate d, e.step.2.mapError (·.relocate d)) := by
  by_cases h : e.state = .halted
  · have h' : (e.relocate d).state = .halted := h
    rw [step_of_halted e h, step_of_halted _ h']
    rfl
  have h' : (e.relocate d).state ≠ .halted := h
  rw [step_eq h, step_eq h', plan_relocate hm]
  cases hp : e.plan with
  | stop answer => rfl
  | execute i op =>
    change ((e.relocate d).executed i op, _) = _
    rw [executed_relocate hm hp]
    rfl

/-- A step does not move the program. -/
theorem Movable.step (hm : e.Movable d) : e.step.1.Movable d where
  here := by
    rw [settings_step, program_step]
    exact hm.here
  there := by
    rw [settings_step, program_step]
    exact hm.there
  jumps := by
    rw [program_step]
    exact hm.jumps

theorem Movable.after (hm : e.Movable d) (k : Nat) : (e.after k).Movable d := by
  induction k with
  | zero => exact hm
  | succ k ih => exact ih.step

/-- **A relocated emulator does the same steps at its place.** -/
theorem after_relocate (hm : e.Movable d) (k : Nat) :
    (e.relocate d).after k = (e.after k).relocate d := by
  induction k with
  | zero => rfl
  | succ k ih => rw [after, ih, step_relocate (hm.after k), after]

/-- **Runs are independent of where the program lies.** A program is loaded at two bases,
at both of which it ends within the address space, and either no word of it decodes to
`shift` or the bases differ by a multiple of 2^28. After any number of steps registers,
memory, output and random source are the same, and so are the run state and the count of
steps. The program counters and the addresses in the histories differ by the distance of
the bases, and the next step has the same outcome, an error being reported at its place. -/
theorem start_relocate (settings : Settings) (program : List Word) (random : G) (base base' : Word)
    (hbase : base.toNat + 4 * program.length ≤ 0x100000000)
    (hbase' : base'.toNat + 4 * program.length ≤ 0x100000000)
    (hjumps : (∀ w ∈ program, ∀ x, instructionSet.decode w = .ok x → x.mnemonic ≠ .shift) ∨
      (0x10000000 : Int) ∣ base'.toNat - base.toNat) (k : Nat) :
    let e := (start { settings with textBase := base } program random).after k
    let e' := (start { settings with textBase := base' } program random).after k
    e'.cpu = e.cpu ∧ e'.state = e.state ∧ e'.steps = e.steps ∧ e'.pc = e.pc + (base' - base) ∧
      e'.history.toList = e.history.toList.map (·.relocate (base' - base)) ∧
      e'.step.2 = e.step.2.mapError (·.relocate (base' - base)) := by
  intro e e'
  have hm : (start { settings with textBase := base } program random).Movable (base' - base) := {
    here := hbase
    there := by
      have hadd : base + (base' - base) = base' := by bv_omega
      change (base + (base' - base)).toNat + 4 * program.length ≤ 0x100000000
      rw [hadd]
      exact hbase'
    jumps := by
      refine hjumps.imp (fun hnone w hw => hnone w (List.mem_toArray.1 hw)) fun hdvd => ?_
      rw [BitVec.toNat_sub]
      omega }
  have he' : e' = e.relocate (base' - base) := by
    rw [← after_relocate hm, relocate_start]
  rw [he', step_relocate (hm.after k)]
  exact ⟨rfl, rfl, rfl, rfl, Window.toList_map _ _, rfl⟩

/-- A loop by an absolute jump, in two regions. -/
theorem start_relocate_shift :
    let loop (base : Word) : Emulator Replay :=
      start { ({} : Settings) with textBase := base } [0x20080003, 0x08100000] ⟨#[], 0⟩
    ((loop 0x400000).after 2).pc = 0x400000 ∧
      ((loop 0x10400000).after 2).pc = ((loop 0x400000).after 2).pc + (0x10400000 - 0x400000) := by
  intro loop
  obtain ⟨-, -, -, hpc, -, -⟩ := start_relocate {} [0x20080003, 0x08100000] (⟨#[], 0⟩ : Replay)
    0x400000 0x10400000 (by decide) (by decide) (.inr (by decide)) 2
  exact ⟨by decide +kernel, hpc⟩

end Emulator

end TetrisMachine
