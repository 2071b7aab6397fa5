import TetrisMachine.Proofs.Execution.Atomicity
import TetrisMachine.Proofs.Execution.Footprint
import TetrisMachine.Proofs.InstructionSet.Operands

/-!
# What instructions change

An instruction that succeeds changes the registers that it is declared to write, and no
others. It stores in one word of memory or in none, prints one text at most, calls the
delegate once at most, and draws from the random source only to roll a die.

* `Operation.Confined`: the changes that an operation is declared to make.
* `Operation.confined_update`: it makes no others.
* `Instruction.perform_confined`: an instruction that succeeds makes no others.
-/

namespace TetrisMachine

variable {G D : Type}

namespace Operation

/-- The states before and after an operation differ only where it is declared to change
something. -/
structure Confined (δ : Delegate D) (op : Operation) (s s' : Cpu G × D) : Prop where
  /-- Registers that it does not write hold what they held. -/
  registers : ∀ r, r ∉ op.writes → s'.1.registers.read r = s.1.registers.read r
  /-- Memory is changed by `hold` alone, in the word at its effective address. -/
  memory : match op with
    | hold _ offset base => ∀ address, address ≠ s.1.address offset base →
        s'.1.memory.load address = s.1.memory.load address
    | _ => s'.1.memory = s.1.memory
  /-- The delegate is called once for a jump, and once or not at all for a branch. -/
  calls : match op with
    | shift target => s'.2 = δ.jump (jumpAddress (δ.programCounter s.2) target) s.2
    | lineclear _ _ offset | nonclear _ _ offset => s'.2 = s.2 ∨ s'.2 = δ.branch offset s.2
    | _ => s'.2 = s.2
  /-- Some operations print one text, some may print one, and the others do not print. -/
  output : match op with
    | ghostpiece .. | viewboard => ∃ text, s'.1.output = text :: s.1.output
    | topout | allclear | tetris =>
        s'.1.output = s.1.output ∨ ∃ text, s'.1.output = text :: s.1.output
    | _ => s'.1.output = s.1.output
  /-- Draws are taken by `drop` alone. -/
  random : match op with
    | drop _ => True
    | _ => s'.1.random = s.1.random

section

variable (c : Cpu G)

/-- A store is seen at its own address only. -/
theorem load_memory_hold {v base : Register} {offset address : Word}
    (h : address ≠ c.address offset base) :
    ((hold v offset base).memory c).load address = c.memory.load address := by
  have hne : c.address offset base ≠ address := h.symm
  simp only [memory, Memory.load, Memory.fault?_setCell, Memory.cell_setCell, if_neg hne]

/-- A branch is taken or it is not. -/
theorem follow_transfer_branch (δ : Delegate D) {op : Operation} {a b : Register} {offset : Word}
    (h : op = lineclear a b offset ∨ op = nonclear a b offset) (pc : Word) (d : D) :
    δ.follow (op.transfer c pc) d = d ∨ δ.follow (op.transfer c pc) d = δ.branch offset d := by
  by_cases hab : c.registers.read a = c.registers.read b
  · rcases h with rfl | rfl
    · simp only [transfer, if_pos hab]
      exact .inr rfl
    · simp only [transfer, if_pos hab]
      exact .inl rfl
  · rcases h with rfl | rfl
    · simp only [transfer, if_neg hab]
      exact .inl rfl
    · simp only [transfer, if_neg hab]
      exact .inr rfl

variable [RandomSource G]

/-- An operation prints one text or none. -/
theorem output_update (op : Operation) :
    (op.update c).output = c.output ∨ ∃ text, (op.update c).output = text :: c.output := by
  simp only [update]
  cases op.text? c with
  | none => exact .inl rfl
  | some text => exact .inr ⟨text, rfl⟩

/-- **An operation changes only what it is declared to change.** -/
theorem confined_update (δ : Delegate D) (op : Operation) (d : D) :
    op.Confined δ (c, d) (op.update c, δ.follow (op.transfer c (δ.programCounter d)) d) where
  registers _ hr := read_registers_of_notMem_writes c hr
  memory := by
    cases op with
    | hold v offset base => exact fun _ h => load_memory_hold c h
    | _ => simp only [update, memory]
  calls := by
    cases op with
    | lineclear a b offset => exact follow_transfer_branch c δ (.inl rfl) _ d
    | nonclear a b offset => exact follow_transfer_branch c δ (.inr rfl) _ d
    | _ => simp only [transfer, Delegate.follow]
  output := by
    cases op with
    | ghostpiece | viewboard => exact ⟨_, rfl⟩
    | topout | allclear | tetris => exact output_update c _
    | _ => simp only [update, text?, Option.toList_none, List.nil_append]
  random := by
    cases op with
    | drop => trivial
    | _ => simp only [update, random]

end

end Operation

namespace Instruction

/-- **An instruction that succeeds changes only what it is declared to change**, whatever
its operands are and for every delegate. Of the registers it changes those that its
operation writes, `hi` and `lo` among them for `attack` and `delay`, and the registers of
the board for the rules of the board. -/
theorem perform_confined [RandomSource G] (δ : Delegate D) (i : Instruction)
    (s s' : Cpu G × D) (h : (i.perform δ).run s = .ok () s') :
    ∃ op, i.Denotes op ∧ op.Confined δ s s' := by
  obtain ⟨c, d⟩ := s
  obtain ⟨op, hop, -, rfl⟩ := perform_eq_ok_iff.1 h
  exact ⟨op, operation_eq_ok_iff.1 hop, op.confined_update c δ d⟩

/-- A product into `hi`, which is written a second time, and that into `lo`. -/
theorem perform_confined_attack :
    let c : Cpu Replay := ⟨RegisterFile.zero.write ⟨8⟩ 0x10000, .zero 0 64, [], ⟨#[], 0⟩⟩
    ∃ s', ((Mnemonic.attack.instruction [32, 8, 8]).perform .counter).run (c, 4) = .ok () s' ∧
      s'.1.registers.read .hi = 1 ∧ s'.1.registers.read .lo = 0 ∧
      ∃ op, (Mnemonic.attack.instruction [32, 8, 8]).Denotes op ∧
        op.Confined .counter (c, 4) s' :=
  ⟨_, rfl, by decide +kernel, by decide +kernel,
    perform_confined .counter (Mnemonic.attack.instruction [32, 8, 8]) _ _ rfl⟩

end Instruction

end TetrisMachine
