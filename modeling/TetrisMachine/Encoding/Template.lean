import TetrisMachine.Encoding.Error
import TetrisMachine.Encoding.Field

/-!
# Templates

A template fixes some bits of a word and gives the others to operand fields.

* `matches_iff`: a word matches if it has the fixed bits.
* `overlaps_comm`: overlapping is symmetric.
-/

namespace TetrisMachine

/-- The encoding of one instruction. -/
structure Template where
  /-- The fixed bits. -/
  mask : Word
  /-- Their values. -/
  bits : Word
  /-- The operand fields, by operand. -/
  fields : List Field
deriving DecidableEq, Repr

namespace Template

/-- Whether a word has the fixed bits. -/
def matchesWord (t : Template) (word : Word) : Bool :=
  word &&& t.mask == t.bits

/-- Whether no bit that both templates fix tells them apart. -/
def overlaps (t t' : Template) : Bool :=
  (t.bits ^^^ t'.bits) &&& (t.mask &&& t'.mask) == 0

def operandCount (t : Template) : Nat :=
  t.fields.length

/-- The operands of a word. -/
def extract (t : Template) (word : Word) : List Word :=
  t.fields.map (·.extract word)

/-- Adds one operand to a word under construction. -/
def pack (m : Mnemonic) (word : Word) (entry : Field × Word) : Except EncodingError Word :=
  if entry.1.Fits entry.2 then .ok (word ||| entry.1.insert entry.2)
  else .error (.operandOutOfRange m entry.1.operand entry.1.width entry.2)

/-- The word of an operand list. The fields are checked and packed in their
order, and the first operand that does not fit is reported. -/
def encode (t : Template) (m : Mnemonic) (operands : List Word) : Except EncodingError Word :=
  if operands.length = t.operandCount then (t.fields.zip operands).foldlM (pack m) t.bits
  else .error (.operandCount m t.operandCount operands.length)

theorem matches_iff (t : Template) (word : Word) :
    t.matchesWord word ↔ word &&& t.mask = t.bits := by
  simp [matchesWord]

theorem overlaps_comm (t t' : Template) : t.overlaps t' = t'.overlaps t := by
  rw [overlaps, overlaps, BitVec.xor_comm, BitVec.and_comm t.mask]

end Template

end TetrisMachine
