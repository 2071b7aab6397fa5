import TetrisMachine.Arithmetic
import TetrisMachine.Board
import TetrisMachine.Delegate
import TetrisMachine.Operation
import TetrisMachine.Random.Source

/-!
# Execution

What an instruction does to registers, memory, output and random source, and what
it asks of the delegate that keeps the program counter. The state is kept when an
instruction fails.

* `Operation.run`: what an operation does.
* `Instruction.perform`: what an instruction does.
* `Instruction.execute`: what an instruction does, and where control goes.
-/

namespace TetrisMachine

/-- The state that instructions work on. -/
structure Cpu (G : Type) where
  registers : RegisterFile
  memory : Memory
  /-- The texts printed so far, newest first. -/
  output : List String
  random : G

/-- A computation on the state and on a delegate that may fail. -/
abbrev Exec (G D : Type) := EStateM Fault (Cpu G × D)

namespace Exec

variable {G D : Type}

def cpu : Exec G D (Cpu G) :=
  return (← get).1

def modifyCpu (f : Cpu G → Cpu G) : Exec G D Unit :=
  modify fun s => (f s.1, s.2)

/-- Calls the delegate. -/
def call (f : D → D) : Exec G D Unit :=
  modify fun s => (s.1, f s.2)

def read (r : Register) : Exec G D Word :=
  return (← cpu).registers.read r

def write (r : Register) (w : Word) : Exec G D Unit :=
  modifyCpu fun c => { c with registers := c.registers.write r w }

def emit (text : String) : Exec G D Unit :=
  modifyCpu fun c => { c with output := text :: c.output }

def board : Exec G D Board :=
  return .ofRegisters (← cpu).registers

def setBoard (b : Board) : Exec G D Unit :=
  modifyCpu fun c => { c with registers := b.place c.registers }

/-- A result that is missing if it overflows. -/
def trap : Option Word → Exec G D Word
  | some w => return w
  | none => throw .arithmeticOverflow

def load (address : Word) : Exec G D Word := do
  match (← cpu).memory.load address with
  | .ok w => return w
  | .error fault => throw (.address address fault)

def store (address w : Word) : Exec G D Unit := do
  match (← cpu).memory.store address w with
  | .ok m => modifyCpu fun c => { c with memory := m }
  | .error fault => throw (.address address fault)

/-- The face of the next roll. -/
def rollDie [RandomSource G] : Exec G D Word := do
  match roll (← cpu).random with
  | some (face, g) =>
    modifyCpu fun c => { c with random := g }
    return face
  | none => throw .noRoll

/-- The address at an offset from the base in a register. -/
def effectiveAddress (offset : Word) (base : Register) : Exec G D Word :=
  return (← read base) + signExtend16 offset

/-- Lowers a board that holds enough rows everywhere, and says whether it did. -/
def clearRows (rows points : Nat) : Exec G D Bool := do
  let b ← board
  if b.Holds rows then
    setBoard (b.lower rows points)
    return true
  else return false

end Exec

/-- The address of a jump target: its 26 bits in words, in the region of the
program counter. -/
def jumpAddress (pc target : Word) : Word :=
  (pc &&& 0xf0000000) ||| (target <<< 2)

open Exec in
/-- What an operation does. -/
def Operation.run {G D : Type} [RandomSource G] (δ : Delegate D) : Operation → Exec G D Unit
  | harddrop d s imm => do
    write d (← trap (exactSum? (← read s) (signExtend16 imm)))
  | attack d a b => do
    let p := wideProduct (← read a) (← read b)
    write d p.low
    write .hi p.high
    write .lo p.low
  | delay a b => do
    if let some q := divide? (← read a) (← read b) then
      write .hi q.remainder
      write .lo q.quotient
  | stack d a b => do
    write d (← trap (exactSum? (← read a) (← read b)))
  | garbage d a b => do
    write d (← trap (exactDifference? (← read a) (← read b)))
  | hold v offset base => do
    let value ← read v
    store (← effectiveAddress offset base) value
  | next d offset base => do
    write d (← load (← effectiveAddress offset base))
  | shift target => do
    let pc := δ.programCounter (← get).2
    call (δ.jump (jumpAddress pc target))
  | lineclear a b offset => do
    if (← read a) = (← read b) then call (δ.branch offset)
  | nonclear a b offset => do
    if (← read a) ≠ (← read b) then call (δ.branch offset)
  | downstack => do
    let _ ← clearRows 1 1
  | topout => do
    let b ← board
    if b.ToppedOut then
      setBoard .empty
      emit s!"Your final score was {b.score.toInt}!\nResetting game.\n"
  | allclear => do
    let b ← board
    if b.Clear then
      setBoard b.double
      emit "All clear! Doubling score.\n"
  | viewboard => do
    emit (← board).text
  | tetris => do
    if ← clearRows 4 5 then emit "Tetris! Score: +5\n"
  | ghostpiece d s imm => do
    let imm := signExtend16 imm
    let sum := (← read s) + imm
    emit s!"The value from adding {imm.toInt} to {d.index} would be {sum.toInt}.\n"
    write d sum
  | drop d => do
    let face ← rollDie
    write d ((← read d) + face)
  | rotate a b => do
    let x ← read a
    let y ← read b
    write a y
    write b x
  | slowgravity d s imm => do
    write d ((← read s) - signExtend16 imm)
  | combo imm => do
    setBoard ((← board).raise (signExtend16 imm))

/-- What an instruction does to the state and to the delegate. -/
def Instruction.perform {G D : Type} [RandomSource G] (δ : Delegate D) (i : Instruction) :
    Exec G D Unit :=
  match i.operation with
  | .ok op => op.run δ
  | .error fault => throw fault

/-- What an instruction does to the state, and where control goes, seen from the
address past it. -/
def Instruction.execute {G : Type} [RandomSource G] (i : Instruction) (pc : Word) :
    EStateM Fault (Cpu G) Transfer := fun c =>
  match (i.perform (.recorder pc)).run (c, .advance) with
  | .ok () (c, transfer) => .ok transfer c
  | .error fault (c, _) => .error fault c

end TetrisMachine
