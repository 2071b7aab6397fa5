/-!
# Mnemonics

The twenty instructions by name: operand format, word layout and description.

A layout draws the 32 columns of an encoded word from bit 31 down. `0` and `1`
are fixed bits; `f`, `s` and `t` mark the fields of the first, second and third
operand. Blanks are for the reader.
-/

namespace TetrisMachine

/-- What the operands of an instruction are. -/
inductive OperandFormat where
  /-- Registers only. -/
  | registers
  /-- Registers, then one 16-bit immediate. -/
  | immediate
  /-- A register, a byte offset, a base register. -/
  | offsetBase
  /-- Two registers and an offset in words. -/
  | branch
  /-- A 26-bit target in words. -/
  | jump
  /-- No operands. -/
  | bare
deriving DecidableEq, Repr

/-- Whether instructions of the format are told apart by their function bits. -/
def OperandFormat.hasFunction : OperandFormat → Bool
  | .registers | .bare => true
  | _ => false

/-- The instructions of the machine. -/
inductive Mnemonic where
  | harddrop | attack | delay | stack | garbage | hold | next | shift | lineclear | nonclear
  | downstack | topout | allclear | viewboard | tetris | ghostpiece | drop | rotate
  | slowgravity | combo
deriving DecidableEq, Repr

namespace Mnemonic

/-- All mnemonics, in catalog order. -/
def all : List Mnemonic :=
  [harddrop, attack, delay, stack, garbage, hold, next, shift, lineclear, nonclear,
    downstack, topout, allclear, viewboard, tetris, ghostpiece, drop, rotate, slowgravity, combo]

def name : Mnemonic → String
  | harddrop => "harddrop"
  | attack => "attack"
  | delay => "delay"
  | stack => "stack"
  | garbage => "garbage"
  | hold => "hold"
  | next => "next"
  | shift => "shift"
  | lineclear => "lineclear"
  | nonclear => "nonclear"
  | downstack => "downstack"
  | topout => "topout"
  | allclear => "allclear"
  | viewboard => "viewboard"
  | tetris => "tetris"
  | ghostpiece => "ghostpiece"
  | drop => "drop"
  | rotate => "rotate"
  | slowgravity => "slowgravity"
  | combo => "combo"

def format : Mnemonic → OperandFormat
  | harddrop | ghostpiece | slowgravity | combo => .immediate
  | attack | delay | stack | garbage | drop | rotate => .registers
  | hold | next => .offsetBase
  | lineclear | nonclear => .branch
  | shift => .jump
  | downstack | topout | allclear | viewboard | tetris => .bare

/-- The layout of the encoded instruction. -/
def layout : Mnemonic → String
  | harddrop => "001000 sssss fffff tttttttttttttttt"
  | attack => "011100 sssss ttttt fffff 00000 000010"
  | delay => "000000 fffff sssss 00000 00000 011010"
  | stack => "000000 sssss ttttt fffff 00000 100000"
  | garbage => "000000 sssss ttttt fffff 00000 100010"
  | hold => "101011 ttttt fffff ssssssssssssssss"
  | next => "100011 ttttt fffff ssssssssssssssss"
  | shift => "000010 ffffffffffffffffffffffffff"
  | lineclear => "000100 fffff sssss tttttttttttttttt"
  | nonclear => "000101 fffff sssss tttttttttttttttt"
  | downstack => "000000 00000000000000000000 111111"
  | topout => "000000 00000000000000000000 111110"
  | allclear => "000000 00000000000000000000 111101"
  | viewboard => "000000 00000000000000000000 111011"
  | tetris => "000000 00000000000000000000 110111"
  | ghostpiece => "111010 sssss fffff tttttttttttttttt"
  | drop => "011101 00000 00000 fffff 00000 000001"
  | rotate => "011101 sssss ttttt fffff 00000 000010"
  | slowgravity => "111011 sssss fffff tttttttttttttttt"
  | combo => "111100 00000 00000 ffffffffffffffff"

/-- One line about what the instruction does. -/
def description : Mnemonic → String
  | harddrop => "Add immediate to register, trap on overflow"
  | attack => "Multiply; low word to dest and LO, high word to HI"
  | delay => "Divide; LO = quotient, HI = remainder"
  | stack => "Add two registers, trap on overflow"
  | garbage => "Subtract two registers, trap on overflow"
  | hold => "Store word to memory"
  | next => "Load word from memory"
  | shift => "Jump unconditionally to target"
  | lineclear => "Branch if equal"
  | nonclear => "Branch if not equal"
  | downstack => "If every column holds at least 1, lower all by 1 and score 1"
  | topout => "If any column reaches 20, reset the board and score"
  | allclear => "If the board is empty, double the score"
  | viewboard => "Print the board"
  | tetris => "If every column holds at least 4, lower all by 4 and score 5"
  | ghostpiece => "Add immediate to register and print the result"
  | drop => "Add a random 1 to 4 to a register"
  | rotate => "Swap two registers"
  | slowgravity => "Subtract immediate from register"
  | combo => "Add immediate to every board column"

/-- The mnemonic of a name. -/
def ofName? (s : String) : Option Mnemonic :=
  all.find? (·.name == s)

theorem mem_all (m : Mnemonic) : m ∈ all := by
  cases m <;> decide

/-- A name is that of its mnemonic. -/
theorem ofName?_name (m : Mnemonic) : ofName? m.name = some m := by
  cases m <;> rfl

theorem name_inj {m m' : Mnemonic} (h : m.name = m'.name) : m = m' := by
  have hname : some m = some m' := by
    rw [← ofName?_name m, h, ofName?_name m']
  exact Option.some.inj hname

end Mnemonic

end TetrisMachine
