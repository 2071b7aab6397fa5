import TetrisMachine.Text.Numeral
import TetrisMachine.Text.Printed

/-!
# Command line arguments

The grammar of the command line. It has two levels: switches and a subcommand,
then the switches, settings and program of the subcommand. Each level is read
from the left, and the first thing that is wrong is reported. A setting may take
its value from the next argument; the value is then judged when the level goes on.

* `Invocation.ofArguments`: what a list of arguments asks for.
-/

namespace TetrisMachine.CommandLine

inductive Subcommand where
  | run | disasm | catalog
deriving DecidableEq, Repr

def Subcommand.all : List Subcommand := [run, disasm, catalog]

def Subcommand.name : Subcommand → String
  | run => "run"
  | disasm => "disasm"
  | catalog => "catalog"

/-- An option without a value. -/
inductive Switch where
  | verbose | quiet | debug | help
deriving DecidableEq, Repr

def Switch.all : List Switch := [verbose, quiet, debug, help]

def Switch.name : Switch → String
  | verbose => "verbose"
  | quiet => "quiet"
  | debug => "debug"
  | help => "help"

def Switch.letter? : Switch → Option Char
  | verbose => some 'v'
  | quiet => some 'q'
  | debug => none
  | help => some 'h'

/-- An option with a value. -/
inductive Setting where
  | seed | textBase | dataBase | dataSize | maxSteps
deriving DecidableEq, Repr

namespace Setting

def all : List Setting := [seed, textBase, dataBase, dataSize, maxSteps]

def name : Setting → String
  | seed => "seed"
  | textBase => "text-base"
  | dataBase => "data-base"
  | dataSize => "data-size"
  | maxSteps => "max-steps"

/-- How the setting is shown in errors. -/
def label : Setting → String
  | seed => "--seed <SEED>"
  | textBase => "--text-base <TEXT_BASE>"
  | dataBase => "--data-base <DATA_BASE>"
  | dataSize => "--data-size <DATA_SIZE>"
  | maxSteps => "--max-steps <MAX_STEPS>"

end Setting

/-- Reads an address or a size: hexadecimal after `0x`, else decimal. -/
def readWord (text : String) : Except String Nat :=
  let result := match text.toList with
    | '0' :: 'x' :: cs => Text.Numeral.read 16 0x100000000 cs
    | cs => Text.Numeral.read 10 0x100000000 cs
  result.mapError fun cause => s!"invalid number `{text}`: {cause.message}"

/-- Reads the value of a setting, or says what is wrong with it. -/
def Setting.read : Setting → String → Except String Nat
  | .seed, text | .maxSteps, text =>
    (Text.Numeral.read 10 0x10000000000000000 text.toList).mapError (·.message)
  | _, text => readWord text

/-- How the program is shown in errors. -/
def programLabel : String := "<PROGRAM>"

/-- What is wrong with the arguments. -/
inductive UsageError where
  /-- There are no arguments. -/
  | nothing
  | missingSubcommand
  | missingProgram
  | unrecognizedSubcommand (word : String)
  | unexpectedArgument (text : String)
  /-- An option that takes no value was given one. -/
  | unexpectedValue (option value : String)
  | missingValue (label : String)
  | invalidValue (label value cause : String)
  /-- An option was given twice. -/
  | repeated (label : String)
  /-- Two options exclude each other. -/
  | conflict (label other : String)
deriving DecidableEq, Repr

/-- What the program is. -/
def about : String := "Run programs for the Tetris instruction set"

namespace UsageError

open Text in
/-- What the error says. Words of the command line are printed without control
sequences. -/
def message : UsageError → String
  | nothing => about
  | missingSubcommand => "error: 'tetris-isa' requires a subcommand but one was not provided"
  | missingProgram => "error: the following required arguments were not provided:"
  | unrecognizedSubcommand word => s!"error: unrecognized subcommand '{printed word}'"
  | unexpectedArgument text => s!"error: unexpected argument '{printed text}' found"
  | unexpectedValue option value =>
    s!"error: unexpected value '{printed value}' for '{option}' found; no more were expected"
  | missingValue label => s!"error: a value is required for '{label}' but none was supplied"
  | invalidValue label value _ => s!"error: invalid value '{printed value}' for '{label}'"
  | repeated label => s!"error: the argument '{label}' cannot be used multiple times"
  | conflict label other => s!"error: the argument '{label}' cannot be used with '{other}'"

/-- What is said about the cause. -/
def cause : UsageError → String
  | invalidValue _ _ cause => s!": {cause}"
  | _ => ""

/-- The report of the error. The cause and the words after it are one text, so a
control sequence that the cause leaves open hides some of them. -/
def report : UsageError → String
  | nothing => about ++ "\n"
  | e => e.message ++ Text.printed (e.cause ++ "\n\nFor more information, try '") ++ "--help'.\n"

end UsageError

/-- Why arguments are not acted on. -/
inductive Refusal where
  | usage (error : UsageError)
  /-- The help text is asked for. -/
  | help
deriving DecidableEq, Repr

/-- An argument, by its form. -/
inductive Token where
  /-- Two dashes: only words follow. -/
  | escape
  | long (name : String) (value : Option String)
  | short (letters : List Char)
  | word (text : String)
deriving DecidableEq, Repr

def Token.ofText (text : String) : Token :=
  match text.toList with
  | ['-', '-'] => .escape
  | '-' :: '-' :: cs =>
    let name := String.ofList (cs.takeWhile (· ≠ '='))
    match cs.dropWhile (· ≠ '=') with
    | [] => .long name none
    | _ :: value => .long name (some (String.ofList value))
  | ['-'] => .word text
  | '-' :: cs => .short cs
  | _ => .word text

/-- What a level of the command line takes. -/
structure Level where
  switches : List Switch
  settings : List Setting
  takesProgram : Bool
  subcommands : List Subcommand
deriving DecidableEq, Repr

def Level.top : Level where
  switches := [.verbose, .quiet, .help]
  settings := []
  takesProgram := false
  subcommands := Subcommand.all

def Level.ofSubcommand : Subcommand → Level
  | .run => ⟨Switch.all, Setting.all, true, []⟩
  | .disasm => ⟨[.verbose, .quiet, .help], [], true, []⟩
  | .catalog => ⟨[.verbose, .quiet, .help], [], false, []⟩

/-- What has been read and not yet judged. -/
inductive Pending where
  | none
  /-- A setting, with its value if that has been read. -/
  | setting (setting : Setting) (value : Option String)
  | program (path : String)
deriving DecidableEq, Repr

/-- What has been read of a level. -/
structure Progress where
  switches : List Switch := []
  settings : List (Setting × Nat) := []
  program : Option String := Option.none
  pending : Pending := .none
  /-- Only words follow. -/
  escaped : Bool := false
deriving DecidableEq, Repr

abbrev Reading := Except Refusal

def refuse {α : Type} (error : UsageError) : Reading α :=
  .error (.usage error)

namespace Progress

variable (p : Progress)

/-- Takes the value of a setting. -/
def addSetting (s : Setting) (value : String) : Reading Progress :=
  if p.settings.any (·.1 = s) then refuse (.repeated s.label)
  else match s.read value with
    | .ok n => .ok { p with settings := p.settings ++ [(s, n)] }
    | .error cause => refuse (.invalidValue s.label value cause)

/-- Judges what is pending. -/
def settle : Reading Progress :=
  let p' := { p with pending := .none }
  match p.pending with
  | .none => .ok p
  | .setting s none => refuse (.missingValue s.label)
  | .setting s (some value) => p'.addSetting s value
  | .program path =>
    if path.isEmpty then refuse (.missingValue programLabel)
    else .ok { p' with program := some path }

/-- Whether a program has been read. -/
def hasProgram : Bool :=
  p.program.isSome || (match p.pending with | .program _ => true | _ => false)

def addSwitch (s : Switch) : Reading Progress := do
  let p ← p.settle
  if s = .help then .error .help
  else if s ∈ p.switches then refuse (.repeated s!"--{s.name}")
  else return { p with switches := p.switches ++ [s] }

/-- Reads an option by its name. -/
def readLong (level : Level) (name : String) (value : Option String) : Reading Progress :=
  match level.switches.find? (·.name = name), level.settings.find? (·.name = name) with
  | some s, _ =>
    match value with
    | none => p.addSwitch s
    | some v => refuse (.unexpectedValue s!"--{s.name}" v)
  | none, some s =>
    match value with
    | none => do
      let p ← p.settle
      return { p with pending := .setting s none }
    | some v => do
      let p ← p.settle
      p.addSetting s v
  | none, none => refuse (.unexpectedArgument s!"--{name}")

/-- Reads switches by their letters. -/
def readShort (level : Level) : List Char → Progress → Reading Progress
  | [], p => .ok p
  | c :: cs, p =>
    match level.switches.find? (·.letter? = some c) with
    | some s => do readShort level cs (← p.addSwitch s)
    | none => refuse (.unexpectedArgument (String.ofList ['-', c]))

/-- Reads the program. -/
def readProgram (level : Level) (text : String) : Reading Progress :=
  if level.takesProgram ∧ ¬ p.hasProgram then do
    let p ← p.settle
    return { p with pending := .program text }
  else if level.subcommands.isEmpty ∨
      (p.escaped ∧ (text = "help" ∨ level.subcommands.any (·.name = text))) then
    refuse (.unexpectedArgument text)
  else refuse (.unrecognizedSubcommand text)

/-- Reads one argument that is not a subcommand. -/
def readArgument (level : Level) (text : String) : Reading Progress :=
  if p.escaped then p.readProgram level text
  else match Token.ofText text with
    | .escape => .ok { p with escaped := true }
    | .long name value => p.readLong level name value
    | .short letters => readShort level letters p
    | .word text =>
      match p.pending with
      | .setting s none => .ok { p with pending := .setting s (some text) }
      | _ => p.readProgram level text

/-- What a level must hold once it has been read. -/
def check (level : Level) : Reading Unit :=
  match p.switches.filter (fun s => s = .verbose ∨ s = .quiet) with
  | s :: other :: _ => refuse (.conflict s!"--{s.name}" s!"--{other.name}")
  | _ => if level.takesProgram ∧ p.program.isNone then refuse .missingProgram else .ok ()

end Progress

/-- Reads the arguments of a subcommand. -/
def readSubcommand (c : Subcommand) (arguments : List String) : Reading Progress := do
  let level := Level.ofSubcommand c
  let p ← arguments.foldlM (fun p text => Progress.readArgument p level text) {}
  let p ← p.settle
  p.check level
  return p

/-- Reads the words after `help`. -/
def readHelp : List String → Reading Unit
  | [] => .error .help
  | word :: rest =>
    if word = "help" ∨ Subcommand.all.any (·.name = word) then
      match rest with
      | [] => .error .help
      | word :: _ => refuse (.unrecognizedSubcommand word)
    else refuse (.unrecognizedSubcommand word)

/-- Reads all arguments, up to and after the subcommand. The switches before it
are checked last. -/
def readTop : Progress → List String → Reading (Subcommand × Progress)
  | p, [] => refuse (if p.switches.isEmpty then .nothing else .missingSubcommand)
  | p, text :: rest =>
    match Subcommand.all.find? (·.name = text), p.escaped with
    | some c, false => do
      let p' ← readSubcommand c rest
      p.check .top
      return (c, p')
    | _, _ =>
      if text = "help" ∧ ¬ p.escaped then do
        readHelp rest
        .error .help
      else do
        let p ← p.readArgument .top text
        readTop p rest

/-- What the command line asks for. -/
inductive Invocation where
  | run (program : String) (settings : List (Setting × Nat)) (debug : Bool)
  | disasm (program : String)
  | catalog
deriving DecidableEq, Repr

/-- What a list of arguments asks for. -/
def Invocation.ofArguments (arguments : List String) : Reading Invocation := do
  let (c, p) ← readTop {} arguments
  match c, p.program with
  | .run, some program => return .run program p.settings (.debug ∈ p.switches)
  | .disasm, some program => return .disasm program
  | .catalog, _ => return .catalog
  | _, none => refuse .missingProgram

end TetrisMachine.CommandLine
