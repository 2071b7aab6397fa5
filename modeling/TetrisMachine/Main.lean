import TetrisMachine.CommandLine.Perform

/-!
# The program

The command line on a real file system and a real terminal. Texts are printed as
soon as a step has emitted them, and lines are read when the debugger asks for one.
-/

namespace TetrisMachine.CommandLine

/-- The number of a system error. A number below zero stands for its opposite. -/
def errorNumber? : IO.Error → Option UInt32
  | .noFileOrDirectory _ n _ | .permissionDenied _ n _ | .inappropriateType _ n _
  | .invalidArgument _ n _ => some (if n < 0x80000000 then n else -n)
  | _ => none

/-- What the numbers mean that opening and reading a file can give. -/
def systemErrors : List (UInt32 × String) :=
  [(2, "No such file or directory"), (13, "Permission denied"), (20, "Not a directory"),
    (21, "Is a directory"), (36, "File name too long")]

/-- The reason the system gives for an error. -/
def systemCause (error : IO.Error) : String :=
  match (errorNumber? error).bind fun n => systemErrors.find? (·.1 == n) with
  | some (n, text) => s!"{text} (os error {n})"
  | none => toString error

/-- The bytes of a file, or why they cannot be read. -/
def contents (path : String) : IO (Except String ByteArray) := do
  match ← (IO.FS.readBinFile path).toBaseIO with
  | .ok bytes => return .ok bytes
  | .error error => return .error (systemCause error)

/-- A seed from the system. -/
def systemSeed : IO UInt64 := do
  let bytes ← IO.getRandomBytes 8
  return bytes.foldl (fun seed byte => seed <<< 8 ||| byte.toUInt64) 0

/-- Prints an outcome and gives its exit code. -/
def finish (outcome : Outcome) : IO UInt32 := do
  IO.print outcome.stdout
  IO.eprint outcome.stderr
  return UInt32.ofNat outcome.code

/-- Prints the texts that have been emitted, and forgets them. -/
def flush {G : Type} (e : Emulator G) : IO (Emulator G) := do
  unless e.cpu.output.isEmpty do
    IO.print (String.join e.cpu.output.reverse)
    (← IO.getStdout).flush
  return { e with cpu := { e.cpu with output := [] } }

/-- Reads lines for the debugger until one leaves it. The end of the input leaves
it too. -/
partial def converse {G : Type} [RandomSource G] (e : Emulator G) : IO (Emulator G) := do
  IO.eprint (unlines (Debugger.prompt e))
  let line ← (← IO.getStdin).getLine
  if line.isEmpty then return e
  let r := Debugger.respond e (line.dropEndWhile (· = '\n')).copy
  let e ← flush r.emulator
  IO.eprint (unlines r.lines)
  if r.leave then return e else converse e

/-- Runs until the emulator halts or fails. -/
partial def runToEnd {G : Type} [RandomSource G] (e : Emulator G) : IO UInt32 := do
  match e.state with
  | .halted => return 0
  | .running =>
    let (e, result) := e.step
    let e ← flush e
    match result with
    | .ok () => runToEnd e
    | .error error => finish (.failure "" "" (.stopped error))
  | .paused =>
    IO.eprint (unlines [Debugger.banner])
    runToEnd (← converse e)

end TetrisMachine.CommandLine

open TetrisMachine.CommandLine in
/-- Does what the arguments ask for. -/
def main (arguments : List String) : IO UInt32 := do
  match Invocation.ofArguments arguments with
  | .error refusal => finish refusal.outcome
  | .ok invocation =>
    let file ← match invocation.program? with
      | some path => contents path
      | none => pure (.error "")
    match invocation.task (fun _ => file) (← systemSeed) with
    | .finished outcome => finish outcome
    | .run e => runToEnd e
