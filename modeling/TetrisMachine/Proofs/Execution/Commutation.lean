import TetrisMachine.Proofs.Execution.Footprint
import TetrisMachine.Proofs.Execution.Sequence
import TetrisMachine.Proofs.InstructionSet.Resolved
import TetrisMachine.Random.Replay

/-!
# Instructions that commute

Two instructions that do not write what the other reads or writes can change places, if
not both of them print, pass control or roll a die and they access different cells of
memory. Each gives the same answer in either order, also when it fails.

* `Operation.Independent`: operations that do not interfere.
* `Operation.Independent.update_comm`: their updates commute.
* `Instruction.outcome_comm`: instructions that commute.
-/

namespace TetrisMachine

namespace Memory

/-- Words that are stored at different addresses can be stored in any order. -/
theorem setCell_comm (m : Memory) {a b : Word} (h : a ≠ b) (v w : Word) :
    (m.setCell a v).setCell b w = (m.setCell b w).setCell a v := by
  have hcells : ((m.setCell a v).setCell b w).cells = ((m.setCell b w).setCell a v).cells := by
    refine Std.ExtTreeMap.ext_getElem? fun k => ?_
    simp only [getElem?_setCell]
    by_cases ha : a = k
    · have hb : b ≠ k := fun hb => h (ha.trans hb.symm)
      rw [if_neg hb, if_pos ha, if_pos ha]
    · rw [if_neg ha, if_neg ha]
  exact congrArg (Memory.mk m.base m.length) hcells

end Memory

namespace Operation

variable {G D : Type} {a b : Operation} {c : Cpu G}

/-- The operations do not interfere in the state: neither writes a register that the
other reads or writes, at most one prints, at most one passes control, at most one rolls
a die, and they do not access the same cell if one of them stores. -/
structure Independent (c : Cpu G) (a b : Operation) : Prop where
  left : ∀ r ∈ a.writes, r ∉ b.reads ∧ r ∉ b.writes
  right : ∀ r ∈ b.writes, r ∉ a.reads ∧ r ∉ a.writes
  prints : ¬ (a.prints = true ∧ b.prints = true)
  controls : ¬ (a.controls = true ∧ b.controls = true)
  rolls : ¬ (a.rolls = true ∧ b.rolls = true)
  addresses : a.mnemonic = .hold ∨ b.mnemonic = .hold →
    ∀ x ∈ a.address? c, ∀ y ∈ b.address? c, x ≠ y

theorem stored?_eq_some {x : Word × Word} (h : a.stored? c = some x) :
    a.mnemonic = .hold ∧ a.address? c = some x.1 := by
  cases a with
  | hold => cases h; exact ⟨rfl, rfl⟩
  | _ => cases h

namespace Independent

theorem symm (h : Independent c a b) : Independent c b a where
  left := h.right
  right := h.left
  prints := fun hb => h.prints hb.symm
  controls := fun hb => h.controls hb.symm
  rolls := fun hb => h.rolls hb.symm
  addresses := fun hb y hy x hx => (h.addresses hb.symm x hx y hy).symm

variable [RandomSource G] (h : Independent c a b)
include h

/-- An operation cannot tell whether an independent one was executed before it. -/
theorem sameView : a.SameView c (b.update c) where
  registers r hr := read_registers_of_notMem_writes c fun hw => (h.right r hw).1 hr
  segment address := by
    simp only [update, memory_eq]
    split <;> rfl
  cell x hx := by
    simp only [update, memory_eq]
    split
    · next y w hs =>
      obtain ⟨hhold, hy⟩ := stored?_eq_some hs
      rw [Memory.cell_setCell, if_neg (h.addresses (.inr hhold) x hx y hy).symm]
    · rfl
  random ha := random_of_not_rolls c (Bool.eq_false_iff.2 fun hb => h.rolls ⟨ha, hb⟩)

/-- A register that the first operation writes is left alike in either order. -/
theorem read_registers_of_mem_writes {r : Register} (hr : r ∈ a.writes) :
    (b.registers (a.update c)).read r = (a.registers (b.update c)).read r := by
  obtain ⟨-, hb⟩ := h.left r hr
  calc (b.registers (a.update c)).read r
      = (a.registers c).read r := read_registers_of_notMem_writes (a.update c) hb
    _ = (a.registers (b.update c)).read r :=
        (h.sameView.read_registers_eq (read_registers_of_notMem_writes c hb)).symm

theorem registers_comm : b.registers (a.update c) = a.registers (b.update c) := by
  refine RegisterFile.ext_read fun r => ?_
  by_cases ha : r ∈ a.writes
  · exact h.read_registers_of_mem_writes ha
  by_cases hb : r ∈ b.writes
  · exact (h.symm.read_registers_of_mem_writes hb).symm
  · calc (b.registers (a.update c)).read r
        = (a.registers c).read r := read_registers_of_notMem_writes (a.update c) hb
      _ = c.registers.read r := read_registers_of_notMem_writes c ha
      _ = (b.registers c).read r := (read_registers_of_notMem_writes c hb).symm
      _ = (a.registers (b.update c)).read r :=
          (read_registers_of_notMem_writes (b.update c) ha).symm

theorem memory_comm : b.memory (a.update c) = a.memory (b.update c) := by
  have ha := h.sameView.stored?_eq
  have hb := h.symm.sameView.stored?_eq
  rw [memory_eq (a.update c), memory_eq (b.update c), ha, hb]
  simp only [update, memory_eq c]
  cases hsa : a.stored? c with
  | none => rfl
  | some x =>
    cases hsb : b.stored? c with
    | none => rfl
    | some y =>
      obtain ⟨hhold, hx⟩ := stored?_eq_some hsa
      obtain ⟨-, hy⟩ := stored?_eq_some hsb
      exact Memory.setCell_comm c.memory (h.addresses (.inl hhold) _ hx _ hy) x.2 y.2

theorem output_comm :
    (b.text? (a.update c)).toList ++ (a.update c).output =
      (a.text? (b.update c)).toList ++ (b.update c).output := by
  rw [h.sameView.text?_eq, h.symm.sameView.text?_eq]
  simp only [update]
  -- one of the two prints nothing
  cases ha : a.prints with
  | false => rw [text?_of_not_prints c ha]; rfl
  | true =>
    have hb : b.prints = false := Bool.eq_false_iff.2 fun hb => h.prints ⟨ha, hb⟩
    rw [text?_of_not_prints c hb]
    rfl

theorem random_comm : b.random (a.update c) = a.random (b.update c) := by
  cases ha : a.rolls with
  | false =>
    rw [random_of_not_rolls _ ha]
    cases hb : b.rolls with
    | false =>
      rw [random_of_not_rolls _ hb]
      exact (random_of_not_rolls c ha).trans (random_of_not_rolls c hb).symm
    | true => exact h.symm.sameView.random_eq hb
  | true =>
    have hb : b.rolls = false := Bool.eq_false_iff.2 fun hb => h.rolls ⟨ha, hb⟩
    rw [random_of_not_rolls _ hb, h.sameView.random_eq ha]
    rfl

/-- **The updates of independent operations commute.** -/
theorem update_comm : b.update (a.update c) = a.update (b.update c) := by
  change (⟨b.registers (a.update c), b.memory (a.update c),
    (b.text? (a.update c)).toList ++ (a.update c).output, b.random (a.update c)⟩ : Cpu G) = _
  rw [h.registers_comm, h.memory_comm, h.output_comm, h.random_comm]
  rfl

/-- The delegate is called by one of two independent operations at most. -/
theorem follow_comm (δ : Delegate D) (d : D) :
    let d₁ := δ.follow (a.transfer c (δ.programCounter d)) d
    let d₂ := δ.follow (b.transfer c (δ.programCounter d)) d
    δ.follow (b.transfer (a.update c) (δ.programCounter d₁)) d₁ =
      δ.follow (a.transfer (b.update c) (δ.programCounter d₂)) d₂ := by
  intro d₁ d₂
  rw [h.sameView.transfer_eq, h.symm.sameView.transfer_eq]
  cases ha : a.controls with
  | false =>
    have hd : d₁ = d := by simp only [d₁, transfer_of_not_controls c ha, Delegate.follow]
    rw [transfer_of_not_controls c ha, hd]
    rfl
  | true =>
    have hb : b.controls = false := Bool.eq_false_iff.2 fun hb => h.controls ⟨ha, hb⟩
    have hd : d₂ = d := by simp only [d₂, transfer_of_not_controls c hb, Delegate.follow]
    rw [transfer_of_not_controls c hb, hd]
    rfl

end Independent

end Operation

namespace Instruction

variable {G D : Type} [RandomSource G] {i j : Instruction} {a b : Operation} {c : Cpu G} {d : D}

/-- **Decoded instructions that do not interfere commute.** They leave the same state
and the same delegate in either order, and each of them gives the same answer whether it
is executed first or second, also when one of them fails or both do. -/
theorem outcome_comm {w w' : Word} (hi : instructionSet.resolve w = .ok i)
    (hj : instructionSet.resolve w' = .ok j) :
    ∃ a b, i.Denotes a ∧ j.Denotes b ∧
      ∀ (δ : Delegate D) (s : Cpu G × D), a.Independent s.1 b →
        (j.outcome δ (i.outcome δ s).2).2 = (i.outcome δ (j.outcome δ s).2).2 ∧
        (i.outcome δ (j.outcome δ s).2).1 = (i.outcome δ s).1 ∧
        (j.outcome δ (i.outcome δ s).2).1 = (j.outcome δ s).1 := by
  obtain ⟨a, ha, -⟩ := exists_operation_of_resolve hi
  obtain ⟨b, hb, -⟩ := exists_operation_of_resolve hj
  refine ⟨a, b, operation_eq_ok_iff.1 ha, operation_eq_ok_iff.1 hb, fun δ s h => ?_⟩
  obtain ⟨c, d⟩ := s
  -- neither can tell whether the other was executed before it
  have hfa : a.fault? (b.update c) = a.fault? c := h.sameView.fault?_eq
  have hfb : b.fault? (a.update c) = b.fault? c := h.symm.sameView.fault?_eq
  cases hca : a.fault? c with
  | some fault =>
    cases hcb : b.fault? c with
    | some fault' => simp only [outcome_of_fault ha hca, outcome_of_fault hb hcb, and_self]
    | none =>
      rw [hca] at hfa
      simp only [outcome_of_fault ha hca, outcome_of_no_fault hb hcb, outcome_of_fault ha hfa,
        and_self]
  | none =>
    cases hcb : b.fault? c with
    | some fault' =>
      rw [hcb] at hfb
      simp only [outcome_of_no_fault ha hca, outcome_of_fault hb hcb, outcome_of_fault hb hfb,
        and_self]
    | none =>
      rw [hca] at hfa
      rw [hcb] at hfb
      simp only [outcome_of_no_fault ha hca, outcome_of_no_fault hb hcb,
        outcome_of_no_fault ha hfa, outcome_of_no_fault hb hfb, h.update_comm, and_true]
      exact congrArg (Prod.mk _) (h.follow_comm δ d)

/-- A store and a load at neighbouring addresses. -/
theorem outcome_comm_hold_next :
    let i := Mnemonic.hold.instruction [8, 0, 29]
    let j := Mnemonic.next.instruction [9, 4, 29]
    let registers := (RegisterFile.zero.write ⟨8⟩ 7).write ⟨29⟩ 0x10010000
    let s : Cpu Replay × Word := (⟨registers, .zero 0x10010000 64, [], ⟨#[], 0⟩⟩, 0x400004)
    instructionSet.resolve 0xafa80000 = .ok i ∧ instructionSet.resolve 0x8fa90004 = .ok j ∧
      (i.outcome .counter s).1 = .ok () ∧
      (j.outcome .counter (i.outcome .counter s).2).2 =
        (i.outcome .counter (j.outcome .counter s).2).2 := by
  intro i j registers s
  have hi : instructionSet.resolve 0xafa80000 = .ok i := by decide +kernel
  have hj : instructionSet.resolve 0x8fa90004 = .ok j := by decide +kernel
  have hopi : i.Denotes (.hold ⟨8⟩ 0 ⟨29⟩) := ⟨rfl, rfl⟩
  have hopj : j.Denotes (.next ⟨9⟩ 4 ⟨29⟩) := ⟨rfl, rfl⟩
  obtain ⟨a, b, ha, hb, hcomm⟩ := outcome_comm (G := Replay) (D := Word) hi hj
  cases ha.unique hopi
  cases hb.unique hopj
  have haddresses : s.1.address 0 ⟨29⟩ ≠ s.1.address 4 ⟨29⟩ := by decide
  have hindependent : (Operation.hold ⟨8⟩ 0 ⟨29⟩).Independent s.1 (.next ⟨9⟩ 4 ⟨29⟩) :=
    { left := by decide
      right := by decide
      prints := by decide
      controls := by decide
      rolls := by decide
      addresses := by
        rintro - _ ⟨⟩ _ ⟨⟩
        exact haddresses }
  exact ⟨hi, hj, by decide +kernel, (hcomm .counter s hindependent).1⟩

end Instruction

end TetrisMachine
