import TetrisMachine.Word
import TetrisMachine.Mnemonic
import TetrisMachine.Text.Numeral

/-!
# Encoding errors

Why a catalog cannot be built, a word cannot be decoded, or operands cannot be
encoded.
-/

namespace TetrisMachine

/-- What is wrong with a number of operands. -/
def operandCountMessage (m : Mnemonic) (expected found : Nat) : String :=
  s!"`{m.name}` takes {expected} operand(s), got {found}"

/-- A failure to describe, encode or decode an instruction. -/
inductive EncodingError where
  /-- The layout of an instruction cannot be read. -/
  | malformedTemplate (mnemonic : Mnemonic) (reason : String)
  /-- Two instructions share an encoding or a key. -/
  | templateOverlap (mnemonic other : Mnemonic)
  /-- A word is the encoding of no instruction. -/
  | unknownEncoding (word : Word)
  | operandCount (mnemonic : Mnemonic) (expected found : Nat)
  /-- An operand does not fit its field. -/
  | operandOutOfRange (mnemonic : Mnemonic) (index width : Nat) (value : Word)
deriving DecidableEq, Repr

open Text in
def EncodingError.message : EncodingError → String
  | malformedTemplate m reason => s!"malformed template for `{m.name}`: {reason}"
  | templateOverlap m other => s!"templates for `{m.name}` and `{other.name}` overlap"
  | unknownEncoding word => s!"no instruction matches encoding 0x{lowerHex 8 word.toNat}"
  | operandCount m expected found => operandCountMessage m expected found
  | operandOutOfRange m index width value =>
    s!"operand {index} of `{m.name}` does not fit its {width}-bit field: {value.toInt}"

end TetrisMachine
