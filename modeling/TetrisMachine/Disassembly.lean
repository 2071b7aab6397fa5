import TetrisMachine.InstructionSet
import TetrisMachine.Register

/-!
# Disassembly

The text of an instruction in a listing: its mnemonic, then its operands as the
format writes them. An operand that is missing is written `?`, and a word that
names no register is written with `$?` before it.

* `Instruction.render`: the text of any instruction.
-/

namespace TetrisMachine

/-- The text of the operand at an index, read as a register. -/
def registerText (operands : List Word) (i : Nat) : String :=
  match operands[i]? with
  | none => "?"
  | some w =>
    match Register.ofWord? w with
    | some r => r.name
    | none => s!"$?{w.toInt}"

/-- The text of the operand at an index, read as a signed number. -/
def numberText (operands : List Word) (i : Nat) : String :=
  match operands[i]? with
  | none => "?"
  | some w => s!"{w.toInt}"

/-- The texts of the first operands, read as registers. -/
def registerTexts (operands : List Word) (n : Nat) : List String :=
  (List.range n).map (registerText operands)

/-- The text of an instruction in the listing format of its descriptor. A jump
shows the byte address that its target stands for. -/
def Descriptor.render (d : Descriptor) (operands : List Word) : String :=
  let n := d.template.operandCount
  match d.format with
  | .bare => d.mnemonic.name
  | .registers => s!"{d.mnemonic.name} " ++ ", ".intercalate (registerTexts operands n)
  | .immediate =>
    s!"{d.mnemonic.name} " ++
      ", ".intercalate (registerTexts operands (n - 1) ++ [numberText operands (n - 1)])
  | .offsetBase =>
    s!"{d.mnemonic.name} {registerText operands 0}, {numberText operands 1}({registerText operands 2})"
  | .branch =>
    s!"{d.mnemonic.name} {registerText operands 0}, {registerText operands 1}, {numberText operands 2}"
  | .jump =>
    let target := operands.headD 0 <<< 2
    s!"{d.mnemonic.name} 0x{Text.lowerHex 1 target.toNat}"

/-- The text of an instruction. An instruction of an unknown key is written as
the key and the operands. -/
def Catalog.render (c : Catalog) (i : Instruction) : String :=
  match c.lookup i.key with
  | some d => d.render i.operands
  | none => s!"<{i.key.text}> [" ++ ", ".intercalate (i.operands.map fun w => s!"{w.toInt}") ++ "]"

/-- The text of an instruction of the machine. -/
def Instruction.render (i : Instruction) : String :=
  instructionSet.render i

end TetrisMachine
