import TetrisMachine.Proofs.Execution.Trapping

/-!
# Subtraction undoes addition

What was added to a register can be subtracted again, and the other way round. Arithmetic that
traps cannot trap on the way back: the exact result is the number that the register held.

* `Instruction.UndoneBy`: one instruction gives back the registers that another one changed.
* `Instruction.undoneBy_of_operation`: it does so if it cannot fail there and writes the old value.
* `Instruction.undoneBy_of_inverse`: operations that trap undo each other if their rules do.
* `Instruction.subtraction_undoes_addition`: the instructions that undo each other.
-/

namespace TetrisMachine

/-- A register that is written and then given its old value back is as it was. -/
theorem RegisterFile.write_write_read (f : RegisterFile) (d : Register) (w : Word) :
    (f.write d w).write d (f.read d) = f := by
  refine ext_read fun r => ?_
  by_cases h : d = r
  · rw [← h, read_write_same]
  · rw [read_write_of_ne _ _ h, read_write_of_ne _ _ h]

section

variable {a b : Word}

/-- An exact sum can be taken back. -/
theorem inSignedRange_sub_of_add (h : InSignedRange (a.toInt + b.toInt)) :
    InSignedRange ((a + b).toInt - b.toInt) := by
  have hsum : (a + b).toInt = a.toInt + b.toInt := toInt_of_exactSum (if_pos h)
  rw [hsum, Int.add_sub_cancel]
  exact inSignedRange_toInt a

/-- An exact difference can be taken back. -/
theorem inSignedRange_add_of_sub (h : InSignedRange (a.toInt - b.toInt)) :
    InSignedRange ((a - b).toInt + b.toInt) := by
  have hdifference : (a - b).toInt = a.toInt - b.toInt := toInt_of_exactDifference (if_pos h)
  rw [hdifference, Int.sub_add_cancel]
  exact inSignedRange_toInt a

end

variable {G D : Type} [RandomSource G]

/-- An operation with an exact result succeeds if the result is in range. -/
theorem Operation.fault?_eq_none_iff_inSignedRange {op : Operation} {c : Cpu G} {n : Int}
    (h : op.exactResult? c.registers = some n) : op.fault? c = none ↔ InSignedRange n := by
  rw [fault?_of_exactResult h]
  split <;> simp_all

namespace Instruction

/-- Wherever the first instruction succeeds, the second one succeeds after it, and the registers
are those that the first one found. -/
def UndoneBy (δ : Delegate D) (i j : Instruction) (s : Cpu G × D) : Prop :=
  ∀ s', (i.perform δ).run s = .ok () s' →
    ∃ s'', (j.perform δ).run s' = .ok () s'' ∧ s''.1.registers = s.1.registers

section

variable {δ : Delegate D} {i j : Instruction} {op op' : Operation} {c : Cpu G} {p : D}

/-- An operation on one register is undone by one that cannot fail after it and writes the old
value there. -/
theorem undoneBy_of_operation {d : Register} {w w' : Word} (hi : i.operation = .ok op)
    (hj : j.operation = .ok op') (hfault : op.fault? c = none → op'.fault? (op.update c) = none)
    (hfirst : op.registers c = c.registers.write d w)
    (hsecond : op'.registers (op.update c) = (op.update c).registers.write d w')
    (hback : w' = c.registers.read d) : i.UndoneBy δ j (c, p) := by
  intro s' hrun
  obtain ⟨op₁, hop₁, hnone, rfl⟩ := perform_eq_ok_iff.1 hrun
  cases hi.symm.trans hop₁
  refine ⟨_, perform_eq_ok_iff.2 ⟨op', hj, hfault hnone, rfl⟩, ?_⟩
  have hupdate : (op.update c).registers = c.registers.write d w := hfirst
  show op'.registers (op.update c) = c.registers
  rw [hsecond, hupdate, hback, RegisterFile.write_write_read]

/-- An operation that adds an immediate to a register is undone by `slowgravity`. -/
theorem undoneBy_slowgravity {d : Register} {imm : Word} (hi : i.operation = .ok op)
    (hadds : op.registers c = c.registers.write d (c.registers.read d + signExtend16 imm)) :
    i.UndoneBy δ (Mnemonic.slowgravity.instruction [d.toWord, d.toWord, imm]) (c, p) := by
  have hj := Operation.operation_instruction (.slowgravity d d imm) rfl
  refine undoneBy_of_operation hi hj (fun _ => rfl) hadds rfl ?_
  show (op.registers c).read d - signExtend16 imm = c.registers.read d
  rw [hadds, RegisterFile.read_write_same, BitVec.add_sub_cancel]

/-- Operations that combine a register with another one and write what a word keeps of the exact
result are undone by each other if their rules are inverse. -/
theorem undoneBy_of_inverse {d b : Register} {exact exact' : Int → Int → Int}
    {rule rule' : Word → Word → Word} (hdb : d ≠ b) (hi : i.operation = .ok op)
    (hj : j.operation = .ok op')
    (hexact : ∀ f, op.exactResult? f = some (exact (f.read d).toInt (f.read b).toInt))
    (hexact' : ∀ f, op'.exactResult? f = some (exact' (f.read d).toInt (f.read b).toInt))
    (hrule : ∀ c : Cpu G,
      op.registers c = c.registers.write d (rule (c.registers.read d) (c.registers.read b)))
    (hrule' : ∀ c : Cpu G,
      op'.registers c = c.registers.write d (rule' (c.registers.read d) (c.registers.read b)))
    (hrange : ∀ x y : Word, InSignedRange (exact x.toInt y.toInt) →
      InSignedRange (exact' (rule x y).toInt y.toInt))
    (hback : ∀ x y, rule' (rule x y) y = x) : i.UndoneBy δ j (c, p) := by
  set x := c.registers.read d
  set y := c.registers.read b
  have hupdate : (op.update c).registers = c.registers.write d (rule x y) := hrule c
  have hd : (op.update c).registers.read d = rule x y := by
    rw [hupdate, RegisterFile.read_write_same]
  -- the second operand is still there
  have hb : (op.update c).registers.read b = y := by
    rw [hupdate, RegisterFile.read_write_of_ne _ _ hdb]
  refine undoneBy_of_operation hi hj ?_ (hrule c) (hrule' (op.update c)) ?_
  · rw [Operation.fault?_eq_none_iff_inSignedRange (hexact _),
      Operation.fault?_eq_none_iff_inSignedRange (hexact' _), hd, hb]
    exact hrange x y
  · rw [hd, hb]
    exact hback x y

theorem stack_undoneBy_garbage {d b : Register} (hdb : d ≠ b) :
    UndoneBy δ (Mnemonic.stack.instruction [d.toWord, d.toWord, b.toWord])
      (Mnemonic.garbage.instruction [d.toWord, d.toWord, b.toWord]) (c, p) := by
  have hi := Operation.operation_instruction (.stack d d b) rfl
  have hj := Operation.operation_instruction (.garbage d d b) rfl
  exact undoneBy_of_inverse hdb hi hj (fun _ => rfl) (fun _ => rfl) (fun _ => rfl) (fun _ => rfl)
    (fun _ _ => inSignedRange_sub_of_add) BitVec.add_sub_cancel

theorem garbage_undoneBy_stack {d b : Register} (hdb : d ≠ b) :
    UndoneBy δ (Mnemonic.garbage.instruction [d.toWord, d.toWord, b.toWord])
      (Mnemonic.stack.instruction [d.toWord, d.toWord, b.toWord]) (c, p) := by
  have hi := Operation.operation_instruction (.garbage d d b) rfl
  have hj := Operation.operation_instruction (.stack d d b) rfl
  exact undoneBy_of_inverse hdb hi hj (fun _ => rfl) (fun _ => rfl) (fun _ => rfl) (fun _ => rfl)
    (fun _ _ => inSignedRange_add_of_sub) BitVec.sub_add_cancel

end

/-- **Subtraction undoes addition**, in every state. `slowgravity` gives back the registers that
`ghostpiece` or `harddrop` found, for every immediate and so for both spellings of -32768; `stack`
and `garbage` give back what the other one found, unless the register is its own second operand.
None of them fails in doing so, and `ghostpiece` never fails. -/
theorem subtraction_undoes_addition (δ : Delegate D) (c : Cpu G) (p : D) (d b : Register)
    (imm : Word) :
    let harddrop := Mnemonic.harddrop.instruction [d.toWord, d.toWord, imm]
    let ghostpiece := Mnemonic.ghostpiece.instruction [d.toWord, d.toWord, imm]
    let slowgravity := Mnemonic.slowgravity.instruction [d.toWord, d.toWord, imm]
    let stack := Mnemonic.stack.instruction [d.toWord, d.toWord, b.toWord]
    let garbage := Mnemonic.garbage.instruction [d.toWord, d.toWord, b.toWord]
    (∃ s', (ghostpiece.perform δ).run (c, p) = .ok () s') ∧
      ghostpiece.UndoneBy δ slowgravity (c, p) ∧
      harddrop.UndoneBy δ slowgravity (c, p) ∧
      (d ≠ b → stack.UndoneBy δ garbage (c, p) ∧ garbage.UndoneBy δ stack (c, p)) := by
  intro harddrop ghostpiece slowgravity stack garbage
  have hharddrop : harddrop.operation = .ok (.harddrop d d imm) :=
    Operation.operation_instruction (.harddrop d d imm) rfl
  have hghostpiece : ghostpiece.operation = .ok (.ghostpiece d d imm) :=
    Operation.operation_instruction (.ghostpiece d d imm) rfl
  refine ⟨⟨_, perform_eq_ok_iff.2 ⟨_, hghostpiece, rfl, rfl⟩⟩, ?_, ?_, ?_⟩
  · exact undoneBy_slowgravity hghostpiece rfl
  · exact undoneBy_slowgravity hharddrop rfl
  · intro hdb
    exact ⟨stack_undoneBy_garbage hdb, garbage_undoneBy_stack hdb⟩

/-- A sum that just fits, and the immediate that is spelled 32768 and stands for -32768. -/
theorem subtraction_undoes_addition_edge :
    let f := (RegisterFile.zero.write ⟨8⟩ 0x7fff0000).write ⟨9⟩ 0xffff
    let s : Cpu Replay × Word := (⟨f, .zero 0 64, [], ⟨#[], 0⟩⟩, 4)
    let runs (i j : Instruction) := ∃ s' s'', (i.perform .counter).run s = .ok () s' ∧
      (j.perform .counter).run s' = .ok () s'' ∧ s''.1.registers = f
    runs (Mnemonic.harddrop.instruction [8, 8, 0x8000])
        (Mnemonic.slowgravity.instruction [8, 8, 0x8000]) ∧
      (⟨8⟩ : Register) ≠ ⟨9⟩ ∧
      runs (Mnemonic.stack.instruction [8, 8, 9]) (Mnemonic.garbage.instruction [8, 8, 9]) := by
  intro f s runs
  have hne : (⟨8⟩ : Register) ≠ ⟨9⟩ := by decide
  obtain ⟨-, -, hharddrop, hother⟩ :=
    subtraction_undoes_addition .counter s.1 s.2 ⟨8⟩ ⟨9⟩ 0x8000
  have hadd : ∃ s', ((Mnemonic.harddrop.instruction [8, 8, 0x8000]).perform .counter).run s =
      .ok () s' :=
    ⟨_, perform_eq_ok_iff.2 ⟨.harddrop ⟨8⟩ ⟨8⟩ 0x8000,
      Operation.operation_instruction (.harddrop ⟨8⟩ ⟨8⟩ 0x8000) rfl, by decide, rfl⟩⟩
  have hsum : ∃ s', ((Mnemonic.stack.instruction [8, 8, 9]).perform .counter).run s = .ok () s' :=
    ⟨_, perform_eq_ok_iff.2 ⟨.stack ⟨8⟩ ⟨8⟩ ⟨9⟩,
      Operation.operation_instruction (.stack ⟨8⟩ ⟨8⟩ ⟨9⟩) rfl, by decide, rfl⟩⟩
  obtain ⟨s', hs'⟩ := hadd
  obtain ⟨t', ht'⟩ := hsum
  obtain ⟨s'', hs'', hrestored⟩ := hharddrop s' hs'
  obtain ⟨t'', ht'', hrestored'⟩ := (hother hne).1 t' ht'
  exact ⟨⟨s', s'', hs', hs'', hrestored⟩, hne, t', t'', ht', ht'', hrestored'⟩

end Instruction

end TetrisMachine
