import TetrisMachine.Fault
import TetrisMachine.InstructionSet
import TetrisMachine.Register

/-!
# Operations

An operation is an instruction whose key is known, whose operands are as many as
its template has, and whose register operands name registers. These are checked
in this order, the registers in the order of the operands.

* `Instruction.operation`: the operation that an instruction stands for.
* `registerOperand_eq_ok_iff`: an operand names a register if it is its word.
-/

namespace TetrisMachine

/-- The instructions of the machine, with their operands. -/
inductive Operation where
  | harddrop (dest source : Register) (imm : Word)
  | attack (dest left right : Register)
  | delay (left right : Register)
  | stack (dest left right : Register)
  | garbage (dest left right : Register)
  | hold (value : Register) (offset : Word) (base : Register)
  | next (dest : Register) (offset : Word) (base : Register)
  | shift (target : Word)
  | lineclear (left right : Register) (offset : Word)
  | nonclear (left right : Register) (offset : Word)
  | downstack
  | topout
  | allclear
  | viewboard
  | tetris
  | ghostpiece (dest source : Register) (imm : Word)
  | drop (dest : Register)
  /-- The third operand of the instruction is not used. -/
  | rotate (left right : Register)
  | slowgravity (dest source : Register) (imm : Word)
  | combo (imm : Word)
deriving DecidableEq, Repr

/-- The number of operands of a mnemonic. -/
def Mnemonic.operandCount (m : Mnemonic) : Nat :=
  m.descriptor.template.operandCount

/-- The register that an operand names. -/
def registerOperand (w : Word) : Except Fault Register :=
  match Register.ofWord? w with
  | some r => .ok r
  | none => .error (.invalidRegister w)

theorem registerOperand_eq_ok_iff {w : Word} {r : Register} :
    registerOperand w = .ok r ↔ w = r.toWord := by
  rw [← Register.ofWord?_eq_some_iff, registerOperand]
  cases Register.ofWord? w <;> simp

@[simp] theorem registerOperand_toWord (r : Register) : registerOperand r.toWord = .ok r :=
  registerOperand_eq_ok_iff.2 rfl

/-- The operation of a mnemonic, from the words at the positions of its operands. -/
def Operation.assemble (m : Mnemonic) (word : Nat → Word) : Except Fault Operation :=
  let reg (i : Nat) : Except Fault Register := registerOperand (word i)
  match m with
  | .harddrop => return .harddrop (← reg 0) (← reg 1) (word 2)
  | .attack => return .attack (← reg 0) (← reg 1) (← reg 2)
  | .delay => return .delay (← reg 0) (← reg 1)
  | .stack => return .stack (← reg 0) (← reg 1) (← reg 2)
  | .garbage => return .garbage (← reg 0) (← reg 1) (← reg 2)
  | .hold => return .hold (← reg 0) (word 1) (← reg 2)
  | .next => return .next (← reg 0) (word 1) (← reg 2)
  | .shift => return .shift (word 0)
  | .lineclear => return .lineclear (← reg 0) (← reg 1) (word 2)
  | .nonclear => return .nonclear (← reg 0) (← reg 1) (word 2)
  | .downstack => return .downstack
  | .topout => return .topout
  | .allclear => return .allclear
  | .viewboard => return .viewboard
  | .tetris => return .tetris
  | .ghostpiece => return .ghostpiece (← reg 0) (← reg 1) (word 2)
  | .drop => return .drop (← reg 0)
  | .rotate => return .rotate (← reg 0) (← reg 1)
  | .slowgravity => return .slowgravity (← reg 0) (← reg 1) (word 2)
  | .combo => return .combo (word 0)

/-- The operation of a mnemonic with operands, which are counted before any of them
is read. -/
def Operation.ofOperands (m : Mnemonic) (operands : List Word) : Except Fault Operation :=
  if operands.length ≠ m.operandCount then
    .error (.operandCount m m.operandCount operands.length)
  else assemble m fun i => operands.getD i 0

/-- The operation that an instruction stands for. -/
def Instruction.operation (i : Instruction) : Except Fault Operation :=
  match instructionSet.lookup i.key with
  | some d => Operation.ofOperands d.mnemonic i.operands
  | none => .error (.unknownInstruction i.key)

end TetrisMachine
