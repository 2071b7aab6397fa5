import TetrisMachine.Encoding.Error
import TetrisMachine.Encoding.Key
import TetrisMachine.Memory

/-!
# Faults

Why an instruction cannot be executed.
-/

namespace TetrisMachine

/-- A failure that ends an instruction. -/
inductive Fault where
  /-- The exact result leaves the signed range. -/
  | arithmeticOverflow
  /-- Memory refuses an address. -/
  | address (address : Word) (fault : AddressFault)
  /-- An operand names no register. -/
  | invalidRegister (operand : Word)
  /-- No instruction has the key. -/
  | unknownInstruction (key : Key)
  | operandCount (mnemonic : Mnemonic) (expected found : Nat)
  /-- The random source has no draw that a roll accepts. -/
  | noRoll
deriving DecidableEq, Repr

def Fault.message : Fault → String
  | arithmeticOverflow => "arithmetic overflow"
  | address a fault => s!"address error: {fault.text} word access at 0x{Text.lowerHex 8 a.toNat}"
  | invalidRegister w => s!"invalid register: {w.toInt}"
  | unknownInstruction key => s!"unknown instruction: {key.text}"
  | operandCount m expected found => operandCountMessage m expected found
  | noRoll => "the random source has no acceptable draw"

end TetrisMachine
