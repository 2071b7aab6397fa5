import TetrisMachine.Debugger.Command
import TetrisMachine.Emulator.Basic

/-!
# Debugger sessions

What the debugger does with the lines it is given, and runs that enter it
whenever they are paused.

* `respond`: the answer to one line.
* `visit`: the lines up to the one that leaves the debugger.
* `run`: a run with everything the debugger prints.
-/

namespace TetrisMachine.Debugger

variable {G : Type} (e : Emulator G)

open Text

/-- The text of an address in front of an instruction. -/
def location (pc : Word) : String :=
  s!"[pc={upperHex 8 pc.toNat}]"

/-- What the debugger shows of the next instruction. -/
inductive Preview where
  | instruction (i : Instruction)
  | undecodable (cause : EncodingError)
  | endOfProgram
deriving DecidableEq, Repr

def preview : Preview :=
  match e.fetch e.pc with
  | none => .endOfProgram
  | some word =>
    match instructionSet.resolve word with
    | .ok i => .instruction i
    | .error cause => .undecodable cause

/-- The lines of a preview. -/
def Preview.report (pc : Word) : Preview → List String
  | instruction i => ["Next instruction:", s!"{location pc} --> {i.render}"]
  | undecodable cause => [s!"{location pc} --> {cause.message}"]
  | endOfProgram => [s!"{location pc} end of program"]

/-- The lines printed before a line is read. -/
def prompt : List String :=
  "" :: (preview e).report e.pc

/-- The registers, one on a line. -/
def registerReport : List String :=
  let line (name : String) (w : Word) : String :=
    s!"{padLeft 5 name}={upperHex 8 w.toNat}"
  Register.all.map (fun r =>
    let w := e.cpu.registers.read r
    line r.name w ++ s!" ({w.toInt})") ++ [line "pc" e.pc]

/-- The board and the score. -/
def boardReport : List String :=
  let b := Board.ofRegisters e.cpu.registers
  [b.text ++ s!"score: {b.score.toInt}"]

/-- The instructions executed last, oldest first. -/
def backtraceReport (count : Nat) : List String :=
  (e.history.toList.take count).reverse.map fun x =>
    s!"{location x.pc} {x.instruction.render}"

/-- A memory cell, or why it cannot be read. -/
def peekReport (text : String) : List String :=
  match parseAddress text.toList with
  | none => [s!"Error: `{text}` is not an address"]
  | some a =>
    match e.cpu.memory.load a with
    | .ok w => [s!"{upperHex 8 a.toNat}={upperHex 8 w.toNat}"]
    | .error fault => [(Fault.address a fault).message]

def helpReport : List String :=
  "Available commands:" :: Command.all.map fun c => s!"  {padRight 18 c.usage}{c.description}"

/-- An error of a step, with its causes on the same line. -/
def errorReport (error : StepError) : List String :=
  [": ".intercalate (error.message :: error.causes)]

/-- The answer to a line. -/
structure Reply (G : Type) where
  emulator : Emulator G
  /-- The lines printed. -/
  lines : List String
  /-- Whether the debugger is left. -/
  leave : Bool

/-- Does what a line asks for. -/
def perform [RandomSource G] : Request → Reply G
  | .resume => ⟨{ e with state := .running }, [], true⟩
  | .step =>
    let (e', result) := e.step
    match result with
    | .ok () => ⟨e', [], false⟩
    | .error error => ⟨e', errorReport error, false⟩
  | .backtrace count => ⟨e, backtraceReport e count, false⟩
  | .registers => ⟨e, registerReport e, false⟩
  | .board => ⟨e, boardReport e, false⟩
  | .peek address => ⟨e, peekReport e address, false⟩
  | .halt => ⟨e.halt, [], true⟩
  | .help => ⟨e, helpReport, false⟩
  | .quit => ⟨e, [], true⟩

/-- The answer to a line. A run that has ended leaves the debugger. -/
def respond [RandomSource G] (line : String) : Reply G :=
  match Request.ofLine line.toList with
  | .error error => ⟨e, error.report, e.state = .halted⟩
  | .ok none => ⟨e, [], e.state = .halted⟩
  | .ok (some request) =>
    let r := perform e request
    { r with leave := r.leave || r.emulator.state = .halted }

/-- What is left after the debugger was entered. -/
structure Visit (G : Type) where
  emulator : Emulator G
  /-- The lines that were not read. -/
  rest : List String
  /-- The lines printed. -/
  transcript : List String

/-- Reads lines until one leaves the debugger. The end of the input leaves it too. -/
def converse [RandomSource G] (e : Emulator G) : List String → Visit G
  | [] => ⟨e, [], prompt e⟩
  | line :: rest =>
    let r := respond e line
    if r.leave then ⟨r.emulator, rest, prompt e ++ r.lines⟩
    else
      let v := converse r.emulator rest
      { v with transcript := prompt e ++ r.lines ++ v.transcript }

/-- What is printed when the debugger is entered. -/
def banner : String := "tetris-isa debug REPL"

/-- Enters the debugger. -/
def visit [RandomSource G] (input : List String) : Visit G :=
  let v := converse e input
  { v with transcript := banner :: v.transcript }

/-- How a run ended. -/
structure Ending (G : Type) extends Visit G where
  result : Except StepError Unit

/-- Runs until the emulator halts or fails, with the debugger in control whenever
it is paused. Missing if so many steps and visits are not enough. -/
def run [RandomSource G] : Nat → Emulator G → List String → Option (Ending G)
  | 0, _, _ => none
  | fuel + 1, e, input =>
    match e.state with
    | .halted => some ⟨⟨e, input, []⟩, .ok ()⟩
    | .running =>
      let (e', result) := e.step
      match result with
      | .ok () => run fuel e' input
      | .error error => some ⟨⟨e', input, []⟩, .error error⟩
    | .paused =>
      let v := visit e input
      (run fuel v.emulator v.rest).map fun ending =>
        { ending with transcript := v.transcript ++ ending.transcript }

end TetrisMachine.Debugger
