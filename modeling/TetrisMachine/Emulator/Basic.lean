import TetrisMachine.Disassembly
import TetrisMachine.Emulator.Window
import TetrisMachine.Execution

/-!
# The emulator

A program in memory of its own, the state it runs on, and one step of a run.

* `step`: what a step does.
* `step_of_halted`: a halted emulator does nothing.
-/

namespace TetrisMachine

/-- Where program and data lie, and when a run is cut off. -/
structure Settings where
  textBase : Word := 0x00400000
  dataBase : Word := Memory.defaultBase
  /-- The size of data memory in bytes. -/
  dataSize : Word := Memory.defaultSize
  /-- The number of instructions after which the run halts. A limit may be any number;
  one that does not fit in 64 bits tells only after `2 ^ 64` instructions. -/
  maxSteps : Option Nat := none
deriving DecidableEq, Repr

/-- Whether a run goes on. -/
inductive RunState where
  | running
  /-- The debugger has control. -/
  | paused
  | halted
deriving DecidableEq, Repr

/-- An instruction that was executed, and where. -/
structure Executed where
  pc : Word
  instruction : Instruction
deriving DecidableEq, Repr

/-- Why a step fails. -/
inductive StepError where
  /-- There is no instruction at the program counter. -/
  | outside (pc : Word)
  | undecodable (pc word : Word) (cause : EncodingError)
  | failed (pc : Word) (instruction : Instruction) (cause : Fault)
deriving DecidableEq, Repr

namespace StepError

open Text in
def message : StepError → String
  | outside pc => s!"program counter 0x{lowerHex 8 pc.toNat} is outside the program"
  | undecodable pc word _ =>
    s!"[pc=0x{lowerHex 8 pc.toNat}] cannot decode 0x{lowerHex 8 word.toNat}"
  | failed pc i _ => s!"[pc=0x{lowerHex 8 pc.toNat}] `{i.render}` failed"

/-- The texts of what caused the error, from the outside in. -/
def causes : StepError → List String
  | outside _ => []
  | undecodable _ _ cause => [cause.message]
  | failed _ _ cause => [cause.message]

end StepError

/-- How many executed instructions an emulator remembers. -/
def historyCapacity : Nat := 1024

/-- A program and the state of its run. -/
structure Emulator (G : Type) where
  settings : Settings
  program : Array Word
  cpu : Cpu G
  /-- The program counter. -/
  pc : Word
  state : RunState
  /-- The instructions executed last. -/
  history : Window Executed historyCapacity
  /-- The number of instructions executed. It has no bound, so it departs from a count
  in 64 bits, but only after `2 ^ 64` instructions. -/
  steps : Nat

namespace Emulator

variable {G : Type}

/-- A program that is ready to run. -/
def start (settings : Settings) (program : List Word) (random : G) : Emulator G where
  settings := settings
  program := program.toArray
  cpu := ⟨.zero, .zero settings.dataBase settings.dataSize, [], random⟩
  pc := settings.textBase
  state := .running
  history := .empty
  steps := 0

variable (e : Emulator G)

/-- The word of the program at an address. -/
def fetch (address : Word) : Option Word :=
  if e.settings.textBase.toNat ≤ address.toNat then
    let offset := address.toNat - e.settings.textBase.toNat
    if offset % 4 = 0 then e.program[offset / 4]? else none
  else none

/-- The address after the last word of the program. -/
def endAddress : Word :=
  e.settings.textBase + BitVec.ofNat 32 (4 * e.program.size)

/-- Whether the run has had all the instructions it may have. -/
def AtLimit : Prop :=
  ∃ limit ∈ e.settings.maxSteps, limit ≤ e.steps

instance : Decidable e.AtLimit :=
  decidable_of_iff (∃ limit, limit ∈ e.settings.maxSteps ∧ limit ≤ e.steps) (by simp [AtLimit])

def halt : Emulator G :=
  { e with state := .halted }

/-- The state after an instruction that was executed. -/
def advance (i : Instruction) (cpu : Cpu G) (pc : Word) : Emulator G :=
  { e with
    cpu := cpu
    pc := pc
    history := e.history.record ⟨e.pc, i⟩
    steps := e.steps + 1 }

variable [RandomSource G]

/-- Executes the instruction that a word encodes, with the program counter past it
as the delegate. The program counter stays on an instruction that fails. -/
def executeWord (word : Word) : Emulator G × Except StepError Unit :=
  match instructionSet.resolve word with
  | .error cause => (e.halt, .error (.undecodable e.pc word cause))
  | .ok i =>
    match (i.perform .counter).run (e.cpu, e.pc + 4) with
    | .ok () (cpu, pc) => (e.advance i cpu pc, .ok ())
    | .error cause (cpu, _) => ({ e with cpu := cpu }.halt, .error (.failed e.pc i cause))

/-- Executes one instruction. At the step limit and at the end of the program the
run halts instead, and a step that fails halts it too. -/
def step : Emulator G × Except StepError Unit :=
  if e.state = .halted then (e, .ok ())
  else if e.AtLimit then (e.halt, .ok ())
  else
    match e.fetch e.pc with
    | some word => e.executeWord word
    | none =>
      (e.halt, if e.pc = e.endAddress then .ok () else .error (.outside e.pc))

theorem step_of_halted (h : e.state = .halted) : e.step = (e, .ok ()) := by
  simp [step, h]

end Emulator

end TetrisMachine
