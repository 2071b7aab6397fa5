import TetrisMachine.Proofs.Emulator.History
import TetrisMachine.Proofs.Execution.Footprint
import TetrisMachine.Proofs.Memory.Accesses
import TetrisMachine.Random.Replay

/-!
# The memory of a run

In a run, memory is accessed by `hold` and `next` alone, at the address that the register and
the offset come to. So what memory holds is what the run has held in it, and `next` finds what
`hold` has left there last.

* `Instruction.run_perform_hold`, `Instruction.run_perform_next`: the accesses.
* `Emulator.holds_drive`: memory holds what a drive has held in it.
* `Emulator.behaves_drive`: memory is a map, by itself and in a run.
-/

namespace TetrisMachine

namespace Instruction

variable {G D : Type} [RandomSource G] {i : Instruction} {offset : Word} {r base : Register}

/-- **A `hold` stores at its address** and does nothing else. -/
theorem run_perform_hold (h : i.operation = .ok (.hold r offset base)) (δ : Delegate D) (c : Cpu G)
    (d : D) :
    let address := c.registers.read base + signExtend16 offset
    (i.perform δ).run (c, d) =
      match c.memory.store address (c.registers.read r) with
      | .ok memory => .ok () ({ c with memory := memory }, d)
      | .error fault => .error (.address address fault) (c, d) := by
  intro address
  rw [run_perform_of_ok h, Operation.fault?, Memory.store, Cpu.address]
  cases c.memory.fault? address <;> rfl

/-- **A `next` loads from its address** and changes one register. -/
theorem run_perform_next (h : i.operation = .ok (.next r offset base)) (δ : Delegate D) (c : Cpu G)
    (d : D) :
    let address := c.registers.read base + signExtend16 offset
    (i.perform δ).run (c, d) =
      match c.memory.load address with
      | .ok w => .ok () ({ c with registers := c.registers.write r w }, d)
      | .error fault => .error (.address address fault) (c, d) := by
  intro address
  rw [run_perform_of_ok h, Operation.fault?, Memory.load, Cpu.address]
  cases c.memory.fault? address <;> rfl

end Instruction

/-- The address and the word, if the instruction holds a word in memory. -/
def Execution.stored? {G : Type} (x : Execution G) : Option (Word × Word) :=
  match x.instruction.operation with
  | .ok op => op.stored? x.before.cpu
  | .error _ => none

namespace Emulator

open Memory

variable {G : Type} [RandomSource G] {e : Emulator G} {x : Execution G} {base : Word} {n : Nat}
  {stored : List (Word × Word)}

/-- **What an instruction holds in memory is held there.** -/
theorem holds_step (h : Holds base n stored e.cpu.memory) (hx : e.execution? = some x) :
    Holds base n (x.stored?.toList ++ stored) e.step.1.cpu.memory := by
  obtain ⟨rfl, op, -, hp, hstep⟩ := step_of_execution? hx
  obtain ⟨-, -, -, -, hop, -⟩ := plan_eq_execute_iff.1 hp
  rw [hstep, Execution.stored?, hop]
  change Holds base n _ (op.memory x.before.cpu)
  rw [Operation.memory_eq]
  dsimp only
  cases op.stored? x.before.cpu with
  | none => exact h
  | some entry => exact h.setCell entry.1 entry.2

theorem holds_act (h : Holds base n stored e.cpu.memory) (a : Action) :
    Holds base n ((e.executed? a).toList.filterMap Execution.stored? ++ stored)
      (e.act a).cpu.memory := by
  cases hexecuted : e.executed? a with
  | none =>
    obtain ⟨s, hs⟩ := act_of_no_executed hexecuted
    rw [hs]
    exact h
  | some x =>
    obtain ⟨hx, hact⟩ := act_of_executed? hexecuted
    have hentry : [x].filterMap Execution.stored? = x.stored?.toList := by
      cases hs : x.stored? <;> simp [hs]
    rw [hact, Option.toList_some, hentry]
    exact holds_step h hx

/-- **Memory holds what a drive has held in it**, newest first. -/
theorem holds_drive (h : Holds base n stored e.cpu.memory) (actions : List Action) :
    Holds base n ((e.executions actions).filterMap Execution.stored? ++ stored)
      (e.drive actions).cpu.memory := by
  induction actions generalizing e stored with
  | nil => exact h
  | cons a actions ih =>
    rw [drive_cons, executions, List.filterMap_append, List.append_assoc]
    exact ih (holds_act h a)

/-- **A `next` loads the word that was held last at its address.** -/
theorem read_of_next (h : Holds base n stored e.cpu.memory) (hx : e.execution? = some x)
    {r b : Register} {offset : Word} (hop : x.instruction.operation = .ok (.next r offset b)) :
    x.after.cpu.registers.read r =
      (stored.lookup (e.cpu.registers.read b + signExtend16 offset)).getD 0 := by
  obtain ⟨rfl, op, -, hp, hstep⟩ := step_of_execution? hx
  obtain ⟨-, -, -, -, hop', -⟩ := plan_eq_execute_iff.1 hp
  cases hop.symm.trans hop'
  rw [Execution.after, hstep, ← h.cell_eq]
  exact RegisterFile.read_write_same ..

/-- **Memory is a map from its addresses to words.** A segment behaves as one after any loads
and stores, whatever its base and size: it has as many words as fit before the end of the
address space. So does the memory of a run after any drive. It holds what `hold` has stored in
it, each access of `hold` and `next` is at the sum of a register and an offset, and a `next`
that succeeds loads the word that was held last at its address. -/
theorem behaves_drive (settings : Settings) (program : List Word) (random : G)
    (actions : List Action) :
    (∀ (base size : Word) (accesses : List Access),
      Behaves base (min size.toNat (0x100000000 - base.toNat) / 4)
        ((zero base size).stores accesses) ((zero base size).accessed accesses)) ∧
    let e := (start settings program random).drive actions
    let held := ((start settings program random).executions actions).filterMap Execution.stored?
    Behaves settings.dataBase
      (min settings.dataSize.toNat (0x100000000 - settings.dataBase.toNat) / 4) held
      e.cpu.memory ∧
    (∀ (i : Instruction) r offset base, i.Denotes (.hold r offset base) →
      ∀ {D : Type} (δ : Delegate D) (c : Cpu G) (d : D),
        let address := c.registers.read base + signExtend16 offset
        (i.perform δ).run (c, d) =
          match c.memory.store address (c.registers.read r) with
          | .ok memory => .ok () ({ c with memory := memory }, d)
          | .error fault => .error (.address address fault) (c, d)) ∧
    (∀ (i : Instruction) r offset base, i.Denotes (.next r offset base) →
      ∀ {D : Type} (δ : Delegate D) (c : Cpu G) (d : D),
        let address := c.registers.read base + signExtend16 offset
        (i.perform δ).run (c, d) =
          match c.memory.load address with
          | .ok w => .ok () ({ c with registers := c.registers.write r w }, d)
          | .error fault => .error (.address address fault) (c, d)) ∧
    ∀ x r offset base, e.execution? = some x →
      x.instruction.Denotes (.next r offset base) →
      x.after.cpu.registers.read r =
        (held.lookup (e.cpu.registers.read base + signExtend16 offset)).getD 0 := by
  refine ⟨fun base size accesses => ?_, ?_⟩
  · have hholds := (holds_zero base size).accessed accesses
    rw [List.append_nil] at hholds
    exact hholds.behaves
  intro e held
  have hholds : Holds settings.dataBase _ (held ++ []) e.cpu.memory :=
    holds_drive (holds_zero settings.dataBase settings.dataSize) actions
  rw [List.append_nil] at hholds
  refine ⟨hholds.behaves, fun i r offset base hop => ?_, fun i r offset base hop => ?_,
    fun x r offset base hx hop => ?_⟩
  · exact Instruction.run_perform_hold (Instruction.operation_eq_ok_iff.2 hop)
  · exact Instruction.run_perform_next (Instruction.operation_eq_ok_iff.2 hop)
  · exact read_of_next hholds hx (Instruction.operation_eq_ok_iff.2 hop)

/-- A word that is held in a segment at an odd address, and loaded after two stores in a segment
at the end of the address space. -/
theorem behaves_drive_next :
    let e₀ : Emulator Replay := start { dataBase := 0x102, dataSize := 8 }
      [0x20080104, 0x20090007, 0xad090000, 0x8d0a0000] ⟨#[], 0⟩
    let actions : List Action := [.step, .step, .step]
    let x : Execution Replay := ⟨e₀.drive actions, Mnemonic.next.instruction [10, 0, 8]⟩
    (e₀.drive actions).execution? = some x ∧ x.after.cpu.registers.read ⟨10⟩ = 7 ∧
      (∃ w, (e₀.drive actions).cpu.memory.load 0x104 = .ok w) ∧
      ¬ (∃ w, (e₀.drive actions).cpu.memory.load 0x10c = .ok w) ∧
      ((zero 0xfffffffa 64).accessed [.store 0xfffffffc 5, .store 0xfffffffe 6]).load 0xfffffffc =
        .ok 5 := by
  intro e₀ actions x
  obtain ⟨hsegment, hrun, -, -, hnext⟩ := behaves_drive { dataBase := 0x102, dataSize := 8 }
    [0x20080104, 0x20090007, 0xad090000, 0x8d0a0000] (⟨#[], 0⟩ : Replay) actions
  have hplan : (e₀.drive actions).plan =
      .execute (Mnemonic.next.instruction [10, 0, 8]) (.next ⟨10⟩ 0 ⟨8⟩) := by decide +kernel
  have hx : (e₀.drive actions).execution? = some x := by
    rw [execution?, if_neg (by decide +kernel), hplan]
  refine ⟨hx, ?_, ?_, ?_, ?_⟩
  · rw [hnext x ⟨10⟩ 0 ⟨8⟩ hx ⟨rfl, rfl⟩]
    decide +kernel
  · rw [hrun.loads]
    decide +kernel
  · rw [hrun.loads]
    decide +kernel
  · have hbehaves := hsegment 0xfffffffa 64 [.store 0xfffffffc 5, .store 0xfffffffe 6]
    obtain ⟨w, hw⟩ := (hbehaves.loads 0xfffffffc).2 (by decide)
    have hlatest : w = 5 := (hbehaves.latest _ _ hw).trans (by decide +kernel)
    rw [hw, hlatest]

end Emulator

end TetrisMachine
