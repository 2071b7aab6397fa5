import TetrisMachine.Word

/-!
# Operand fields

A run of bits of an encoded word that holds one operand. A field of 16 bits is
read as a signed number and also takes its unsigned readings; a field of any
other width holds nonnegative numbers.

* `extract`, `insert`: the operand in a word.
* `Fits`: the operands a field takes.
-/

namespace TetrisMachine

/-- A field of an encoded word. -/
structure Field where
  /-- Index of the operand it holds. -/
  operand : Nat
  /-- Position of its lowest bit. -/
  shift : Nat
  width : Nat
deriving DecidableEq, Repr

namespace Field

variable (f : Field)

/-- As many low bits as the field is wide. -/
def mask : Word :=
  BitVec.ofNat 32 ((1 <<< f.width) - 1)

/-- The operand that a word holds in the field. -/
def extract (word : Word) : Word :=
  let raw := (word >>> f.shift) &&& f.mask
  if f.width = 16 then signExtend16 raw else raw

/-- The operands that the field takes. -/
def Fits (value : Word) : Prop :=
  if f.width = 16 then -0x8000 ≤ value.toInt ∧ value.toInt < 0x10000
  else 0 ≤ value.toInt ∧ value.toNat < 1 <<< f.width

instance (value : Word) : Decidable (f.Fits value) :=
  inferInstanceAs (Decidable (ite _ _ _))

/-- The bits of a word that holds the operand and nothing else. -/
def insert (value : Word) : Word :=
  (value &&& f.mask) <<< f.shift

end Field

end TetrisMachine
