import TetrisMachine.CommandLine.Arguments
import TetrisMachine.Debugger.Session
import TetrisMachine.Listing
import TetrisMachine.Random.Xoshiro

/-!
# What the command line does

The texts that each subcommand prints, and how it ends.

* `Invocation.task`: what is left to do once the program has been read.
* `perform`: the outcome of a list of arguments.
-/

namespace TetrisMachine.CommandLine

open Text

/-- Why a subcommand fails. -/
inductive Failure where
  /-- The program cannot be read, for a reason given by the system. -/
  | unreadable (path cause : String)
  /-- The listing cannot be parsed. -/
  | unloadable (path : String) (cause : ListingError)
  /-- A step of the run failed. -/
  | stopped (error : StepError)
deriving DecidableEq, Repr

namespace Failure

def message : Failure → String
  | unreadable path _ => s!"cannot read {path}"
  | unloadable path _ => s!"cannot load {path}"
  | stopped error => error.message

/-- The texts of what caused the failure, from the outside in. -/
def causes : Failure → List String
  | unreadable _ cause => [cause]
  | unloadable _ cause => [cause.message, cause.cause.message]
  | stopped error => error.causes

/-- The report of the failure. Several causes are numbered. -/
def report (f : Failure) : String :=
  let lines := match f.causes with
    | [] => []
    | [cause] => ["", "Caused by:", s!"    {cause}"]
    | causes => "" :: "Caused by:" :: causes.zipIdx.map fun (cause, i) => s!"    {i}: {cause}"
  "\n".intercalate (s!"Error: {f.message}" :: lines) ++ "\n"

end Failure

/-- The settings of a run. -/
def settingsOf (given : List (Setting × Nat)) : Settings :=
  let word (s : Setting) (default : Word) : Word :=
    ((given.lookup s).map (BitVec.ofNat 32)).getD default
  let d : Settings := {}
  { textBase := word .textBase d.textBase
    dataBase := word .dataBase d.dataBase
    dataSize := word .dataSize d.dataSize
    maxSteps := given.lookup .maxSteps }

/-- The seed of a run, if it is given. -/
def seedOf (given : List (Setting × Nat)) : Option UInt64 :=
  (given.lookup .seed).map UInt64.ofNat

/-- The words of a program, from the bytes of its file. -/
def loadProgram (path : String) (file : Except String ByteArray) : Except Failure (List Word) :=
  match file with
  | .error cause => .error (.unreadable path cause)
  | .ok bytes =>
    match String.fromUTF8? bytes with
    | none => .error (.unreadable path "stream did not contain valid UTF-8")
    | some s => (Listing.parse s).mapError (.unloadable path)

/-- A line for each mnemonic. -/
def catalogText : String :=
  String.join (instructionSet.descriptors.map fun d =>
    let m := d.mnemonic
    s!"{padRight 12 m.name} {padRight 40 m.layout} {m.description}\n")

/-- A line for each word of a program. -/
def disassembly (program : List Word) : String :=
  let base : Settings := {}
  String.join (program.zipIdx.map fun (w, i) =>
    let address := base.textBase + BitVec.ofNat 32 (4 * i)
    let text := match instructionSet.resolve w with
      | .ok instruction => instruction.render
      | .error error => s!"; {error.message}"
    s!"{lowerHex 8 address.toNat}:  {lowerHex 8 w.toNat}  {text}\n")

/-- The emulator of a run. A run without a seed takes the one from the system. -/
def emulatorOf (program : List Word) (given : List (Setting × Nat)) (debug : Bool)
    (systemSeed : UInt64) : Emulator Xoshiro :=
  let e := Emulator.start (settingsOf given) program
    (Xoshiro.ofSeed ((seedOf given).getD systemSeed))
  if debug then { e with state := .paused } else e

/-- The texts printed, and the exit code. -/
structure Outcome where
  code : Nat
  stdout : String
  stderr : String
deriving DecidableEq, Repr

def Outcome.success (stdout : String) : Outcome :=
  ⟨0, stdout, ""⟩

/-- The outcome of a failure, after other texts. -/
def Outcome.failure (stdout stderr : String) (f : Failure) : Outcome :=
  ⟨1, stdout, stderr ++ f.report⟩

def helpText : String :=
  s!"{about}\n\nUsage: tetris-isa [OPTIONS] <COMMAND>\n\nCommands: run, disasm, catalog, help\n"

def Refusal.outcome : Refusal → Outcome
  | .help => .success helpText
  | .usage error => ⟨2, "", error.report⟩

/-- A text of lines. -/
def unlines (lines : List String) : String :=
  String.join (lines.map (· ++ "\n"))

/-- The outcome of a run. -/
def outcomeOfEnding {G : Type} (ending : Debugger.Ending G) : Outcome :=
  let stdout := String.join ending.emulator.cpu.output.reverse
  let stderr := unlines ending.transcript
  match ending.result with
  | .ok () => ⟨0, stdout, stderr⟩
  | .error error => .failure stdout stderr (.stopped error)

/-- What is left to do once the program has been read. -/
inductive Task where
  | finished (outcome : Outcome)
  | run (emulator : Emulator Xoshiro)

/-- The program that an invocation names. -/
def Invocation.program? : Invocation → Option String
  | .run path _ _ | .disasm path => some path
  | .catalog => none

/-- The task of an invocation, given the files and a seed from the system. -/
def Invocation.task (files : String → Except String ByteArray) (systemSeed : UInt64) :
    Invocation → Task
  | .catalog => .finished (.success catalogText)
  | .disasm path =>
    match loadProgram path (files path) with
    | .ok program => .finished (.success (disassembly program))
    | .error f => .finished (.failure "" "" f)
  | .run path given debug =>
    match loadProgram path (files path) with
    | .ok program => .run (emulatorOf program given debug systemSeed)
    | .error f => .finished (.failure "" "" f)

/-- The outcome of a list of arguments, given the files, the lines of the input and
a seed from the system. Missing if a run does not end within the fuel. -/
def perform (fuel : Nat) (arguments : List String) (files : String → Except String ByteArray)
    (input : List String) (systemSeed : UInt64) : Option Outcome :=
  match Invocation.ofArguments arguments with
  | .error refusal => some refusal.outcome
  | .ok invocation =>
    match invocation.task files systemSeed with
    | .finished outcome => some outcome
    | .run e => (Debugger.run fuel e input).map outcomeOfEnding

end TetrisMachine.CommandLine
