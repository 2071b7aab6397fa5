import TetrisMachine.Execution

/-!
# The outcome of an operation

What an operation does, in closed form: why it fails, and otherwise what the
registers, the memory, the output and the random source are after it and where
control goes. A failure is found before anything is written.

* `Operation.run_eq`: an operation does what its closed form says.
-/

namespace TetrisMachine

variable {G D : Type}

/-- The address at an offset from the base in a register. -/
def Cpu.address (c : Cpu G) (offset : Word) (base : Register) : Word :=
  c.registers.read base + signExtend16 offset

/-- The board that the registers hold. -/
def Cpu.board (c : Cpu G) : Board :=
  .ofRegisters c.registers

namespace Operation

section

variable [RandomSource G] (c : Cpu G)

/-- Why an operation fails. -/
def fault? : Operation → Option Fault
  | harddrop _ s imm =>
    if (exactSum? (c.registers.read s) (signExtend16 imm)).isSome then none
    else some .arithmeticOverflow
  | stack _ a b =>
    if (exactSum? (c.registers.read a) (c.registers.read b)).isSome then none
    else some .arithmeticOverflow
  | garbage _ a b =>
    if (exactDifference? (c.registers.read a) (c.registers.read b)).isSome then none
    else some .arithmeticOverflow
  | hold _ offset base | next _ offset base =>
    (c.memory.fault? (c.address offset base)).map (.address (c.address offset base))
  | drop _ => if (roll c.random).isSome then none else some .noRoll
  | _ => none

/-- The registers after an operation that succeeds. -/
def registers : Operation → RegisterFile
  | harddrop d s imm | ghostpiece d s imm =>
    c.registers.write d (c.registers.read s + signExtend16 imm)
  | attack d a b =>
    let p := wideProduct (c.registers.read a) (c.registers.read b)
    ((c.registers.write d p.low).write .hi p.high).write .lo p.low
  | delay a b =>
    match divide? (c.registers.read a) (c.registers.read b) with
    | some q => (c.registers.write .hi q.remainder).write .lo q.quotient
    | none => c.registers
  | stack d a b => c.registers.write d (c.registers.read a + c.registers.read b)
  | garbage d a b => c.registers.write d (c.registers.read a - c.registers.read b)
  | next d offset base => c.registers.write d (c.memory.cell (c.address offset base))
  | downstack => if c.board.Holds 1 then (c.board.lower 1 1).place c.registers else c.registers
  | topout => if c.board.ToppedOut then Board.empty.place c.registers else c.registers
  | allclear => if c.board.Clear then c.board.double.place c.registers else c.registers
  | tetris => if c.board.Holds 4 then (c.board.lower 4 5).place c.registers else c.registers
  | drop d =>
    match roll c.random with
    | some (face, _) => c.registers.write d (c.registers.read d + face)
    | none => c.registers
  | rotate a b => (c.registers.write a (c.registers.read b)).write b (c.registers.read a)
  | slowgravity d s imm => c.registers.write d (c.registers.read s - signExtend16 imm)
  | combo imm => (c.board.raise (signExtend16 imm)).place c.registers
  | hold .. | shift _ | lineclear .. | nonclear .. | viewboard => c.registers

/-- The memory after an operation that succeeds. -/
def memory : Operation → Memory
  | hold v offset base => c.memory.setCell (c.address offset base) (c.registers.read v)
  | _ => c.memory

/-- The text that an operation prints. -/
def text? : Operation → Option String
  | topout =>
    if c.board.ToppedOut then
      some s!"Your final score was {c.board.score.toInt}!\nResetting game.\n"
    else none
  | allclear => if c.board.Clear then some "All clear! Doubling score.\n" else none
  | viewboard => some c.board.text
  | tetris => if c.board.Holds 4 then some "Tetris! Score: +5\n" else none
  | ghostpiece d s imm =>
    let imm := signExtend16 imm
    let sum := c.registers.read s + imm
    some s!"The value from adding {imm.toInt} to {d.index} would be {sum.toInt}.\n"
  | _ => none

/-- The random source after an operation that succeeds. -/
def random : Operation → G
  | drop _ =>
    match roll c.random with
    | some (_, g) => g
    | none => c.random
  | _ => c.random

/-- The state after an operation that succeeds. -/
def update (op : Operation) : Cpu G where
  registers := op.registers c
  memory := op.memory c
  output := (op.text? c).toList ++ c.output
  random := op.random c

/-- Where control goes after an operation that succeeds. -/
def transfer (pc : Word) : Operation → Transfer
  | shift target => .jump (jumpAddress pc target)
  | lineclear a b offset =>
    if c.registers.read a = c.registers.read b then .branch offset else .advance
  | nonclear a b offset =>
    if c.registers.read a = c.registers.read b then .advance else .branch offset
  | _ => .advance

end

end Operation

namespace Exec

variable (c : Cpu G) (d : D)

@[simp] theorem run_cpu : (cpu : Exec G D (Cpu G)).run (c, d) = .ok c (c, d) := rfl

@[simp] theorem run_call (f : D → D) :
    (call f : Exec G D Unit).run (c, d) = .ok () (c, f d) := rfl

@[simp] theorem run_read (r : Register) :
    (read r : Exec G D Word).run (c, d) = .ok (c.registers.read r) (c, d) := rfl

@[simp] theorem run_write (r : Register) (w : Word) :
    (write r w : Exec G D Unit).run (c, d) =
      .ok () ({ c with registers := c.registers.write r w }, d) := rfl

@[simp] theorem run_board : (board : Exec G D Board).run (c, d) = .ok c.board (c, d) := rfl

@[simp] theorem run_effectiveAddress (offset : Word) (base : Register) :
    (effectiveAddress offset base : Exec G D Word).run (c, d) =
      .ok (c.address offset base) (c, d) := rfl

theorem run_trap (sum : Option Word) :
    (trap sum : Exec G D Word).run (c, d) =
      match sum with
      | some w => .ok w (c, d)
      | none => .error .arithmeticOverflow (c, d) := by
  cases sum <;> rfl

theorem run_load (address : Word) :
    (load address : Exec G D Word).run (c, d) =
      match c.memory.fault? address with
      | some fault => .error (.address address fault) (c, d)
      | none => .ok (c.memory.cell address) (c, d) := by
  simp only [load, EStateM.run_bind, run_cpu, Memory.load]
  cases c.memory.fault? address <;> rfl

theorem run_store (address w : Word) :
    (store address w : Exec G D Unit).run (c, d) =
      match c.memory.fault? address with
      | some fault => .error (.address address fault) (c, d)
      | none => .ok () ({ c with memory := c.memory.setCell address w }, d) := by
  simp only [store, EStateM.run_bind, run_cpu, Memory.store]
  cases c.memory.fault? address <;> rfl

theorem run_rollDie [RandomSource G] :
    (rollDie : Exec G D Word).run (c, d) =
      match roll c.random with
      | some (face, g) => .ok face ({ c with random := g }, d)
      | none => .error .noRoll (c, d) := by
  simp only [rollDie, EStateM.run_bind, run_cpu]
  cases roll c.random <;> rfl

theorem run_clearRows (rows points : Nat) :
    (clearRows rows points : Exec G D Bool).run (c, d) =
      if c.board.Holds rows then
        .ok true ({ c with registers := (c.board.lower rows points).place c.registers }, d)
      else .ok false (c, d) := by
  rw [clearRows, EStateM.run_bind, run_board]
  dsimp only
  by_cases h : c.board.Holds rows
  · rw [if_pos h, if_pos h]
    rfl
  · rw [if_neg h, if_neg h]
    rfl

end Exec

open Exec in
/-- **An operation does what its closed form says.** It fails before it has done
anything, or it updates the state and tells the delegate where control goes. -/
theorem Operation.run_eq [RandomSource G] (δ : Delegate D) (op : Operation) (c : Cpu G) (d : D) :
    (op.run δ).run (c, d) =
      match op.fault? c with
      | some fault => .error fault (c, d)
      | none => .ok () (op.update c, δ.follow (op.transfer c (δ.programCounter d)) d) := by
  cases op with
  -- the operations that trap fail before they write
  | harddrop dest s imm =>
    simp only [Operation.run, EStateM.run_bind, run_read, run_trap, fault?]
    cases h : exactSum? (c.registers.read s) (signExtend16 imm) with
    | none => rfl
    | some sum => rw [eq_of_exactSum h]; rfl
  | stack dest a b =>
    simp only [Operation.run, EStateM.run_bind, run_read, run_trap, fault?]
    cases h : exactSum? (c.registers.read a) (c.registers.read b) with
    | none => rfl
    | some sum => rw [eq_of_exactSum h]; rfl
  | garbage dest a b =>
    simp only [Operation.run, EStateM.run_bind, run_read, run_trap, fault?]
    cases h : exactDifference? (c.registers.read a) (c.registers.read b) with
    | none => rfl
    | some difference => rw [eq_of_exactDifference h]; rfl
  -- memory judges the address before it is used
  | hold v offset base =>
    simp only [Operation.run, EStateM.run_bind, run_read, run_effectiveAddress, run_store, fault?]
    cases c.memory.fault? (c.address offset base) <;> rfl
  | next dest offset base =>
    simp only [Operation.run, EStateM.run_bind, run_effectiveAddress, run_load, fault?]
    cases c.memory.fault? (c.address offset base) <;> rfl
  | drop dest =>
    simp only [Operation.run, EStateM.run_bind, run_rollDie, fault?]
    cases h : roll c.random with
    | none => rfl
    | some r => simp [update, registers, memory, text?, random, transfer, Delegate.follow, h]
  | delay a b =>
    simp only [Operation.run, EStateM.run_bind, run_read, fault?]
    cases h : divide? (c.registers.read a) (c.registers.read b) with
    | none => simp [update, registers, memory, text?, random, transfer, Delegate.follow, h]
    | some q => simp [update, registers, memory, text?, random, transfer, Delegate.follow, h]
  | lineclear a b offset =>
    simp only [Operation.run, EStateM.run_bind, run_read, fault?]
    by_cases h : c.registers.read a = c.registers.read b
    · simp [update, registers, memory, text?, random, transfer, Delegate.follow, h]
    · simp [update, registers, memory, text?, random, transfer, Delegate.follow, h]
  | nonclear a b offset =>
    simp only [Operation.run, EStateM.run_bind, run_read, fault?]
    by_cases h : c.registers.read a = c.registers.read b
    · simp [update, registers, memory, text?, random, transfer, Delegate.follow, h]
    · simp [update, registers, memory, text?, random, transfer, Delegate.follow, h]
  -- the rules of the board, by whether they apply
  | downstack =>
    rw [Operation.run, EStateM.run_bind, run_clearRows]
    by_cases h : c.board.Holds 1
    · simp only [update, registers, memory, text?, random, transfer, Delegate.follow, if_pos h]
      rfl
    · simp only [update, registers, memory, text?, random, transfer, Delegate.follow, if_neg h]
      rfl
  | topout =>
    rw [Operation.run, EStateM.run_bind, run_board]
    by_cases h : c.board.ToppedOut
    · simp only [update, registers, memory, text?, random, transfer, Delegate.follow, if_pos h]
      rfl
    · simp only [update, registers, memory, text?, random, transfer, Delegate.follow, if_neg h]
      rfl
  | allclear =>
    rw [Operation.run, EStateM.run_bind, run_board]
    by_cases h : c.board.Clear
    · simp only [update, registers, memory, text?, random, transfer, Delegate.follow, if_pos h]
      rfl
    · simp only [update, registers, memory, text?, random, transfer, Delegate.follow, if_neg h]
      rfl
  | tetris =>
    rw [Operation.run, EStateM.run_bind, run_clearRows]
    by_cases h : c.board.Holds 4
    · simp only [update, registers, memory, text?, random, transfer, Delegate.follow, if_pos h]
      rfl
    · simp only [update, registers, memory, text?, random, transfer, Delegate.follow, if_neg h]
      rfl
  -- the others do not check anything
  | attack | shift | viewboard | ghostpiece | rotate | slowgravity | combo => rfl

end TetrisMachine
