import TetrisMachine.Encoding.Template

/-!
# Keys

The bits that select an instruction: its opcode, and its function bits where
several instructions share the opcode.
-/

namespace TetrisMachine

/-- The bits that select an instruction. -/
structure Key where
  opcode : BitVec 8
  function : Option (BitVec 8)
deriving DecidableEq, Repr

namespace Key

/-- The opcode is in the top six bits of a word. -/
def opcodeOf (word : Word) : BitVec 8 :=
  (word >>> 26).setWidth 8

/-- The function is in the low six bits of a word. -/
def functionOf (word : Word) : BitVec 8 :=
  (word &&& 0x3f).setWidth 8

/-- The key of a word if its opcode alone selects the instruction. -/
def opcodeOnly (word : Word) : Key :=
  ⟨opcodeOf word, none⟩

/-- The key of a word if its function bits take part. -/
def withFunction (word : Word) : Key :=
  ⟨opcodeOf word, some (functionOf word)⟩

open Text in
def text (k : Key) : String :=
  match k.function with
  | some function => s!"opcode 0x{lowerHex 2 k.opcode.toNat} funct 0x{lowerHex 2 function.toNat}"
  | none => s!"opcode 0x{lowerHex 2 k.opcode.toNat}"

end Key

/-- The key of the words that match. The function bits take part if the format
uses them and the template fixes them all. -/
def Template.key (t : Template) (format : OperandFormat) : Key :=
  if format.hasFunction ∧ t.mask &&& 0x3f = 0x3f then .withFunction t.bits else .opcodeOnly t.bits

end TetrisMachine
