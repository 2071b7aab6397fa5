import TetrisMachine.Text.Backspace
import TetrisMachine.Text.Blank
import TetrisMachine.Text.Numeral
import TetrisMachine.Text.Words
import TetrisMachine.Word

/-!
# Debugger commands

Reading a line of the debugger: the words of the line, the command that the first
word abbreviates, and its arguments.

* `Request.ofLine`: the request on a line, or what is wrong with the line.
* `parseAddress`: the address that a text names.
-/

namespace TetrisMachine.Debugger

/-- The names of the commands. -/
inductive Command where
  | resume | step | backtrace | registers | board | peek | halt | help | quit
deriving DecidableEq, Repr

namespace Command

/-- All commands, in the order of their names. -/
def all : List Command :=
  [board, backtrace, resume, halt, help, peek, registers, quit, step]

def name : Command → String
  | resume => "c"
  | step => "s"
  | backtrace => "bt"
  | registers => "pr"
  | board => "board"
  | peek => "peek"
  | halt => "halt"
  | help => "help"
  | quit => "quit"

/-- How the arguments are described. -/
def parameters : Command → List String
  | backtrace => ["x:usize"]
  | peek => ["addr:String"]
  | _ => []

def description : Command → String
  | resume => "Continue execution"
  | step => "Step one instruction"
  | backtrace => "Print last X instructions executed"
  | registers => "Print the value of all registers"
  | board => "Print the board and score"
  | peek => "Peek a word from memory"
  | halt => "Halt execution"
  | help => "Show this help message"
  | quit => "Quit repl"

/-- The name and the arguments of a command. -/
def usage (c : Command) : String :=
  s!"{c.name} " ++ " ".intercalate c.parameters

/-- The commands whose names a word begins. The empty word begins none. -/
def candidates (word : String) : List Command :=
  if word.isEmpty then []
  else all.filter fun c => word.toList.isPrefixOf c.name.toList

/-- The command that a word abbreviates: the one it names, or the only one whose
name it begins. -/
def ofWord? (word : String) : Option Command :=
  (all.find? (·.name = word)).or
    (match candidates word with
      | [c] => some c
      | _ => none)

end Command

/-- What a line asks for. -/
inductive Request where
  | resume
  | step
  /-- The last instructions, at most so many. -/
  | backtrace (count : Nat)
  | registers
  | board
  /-- The memory cell at the address that a text names. -/
  | peek (address : String)
  | halt
  | help
  | quit
deriving DecidableEq, Repr

/-- What is wrong with a line. -/
inductive LineError where
  | unclosedQuote
  /-- The word abbreviates no command, or several. -/
  | unknown (word : String)
  | argumentCount (command : Command) (found : Nat)
  | badArgument (command : Command) (value : String) (cause : Text.NumeralError)
deriving DecidableEq, Repr

/-- The lines that report an error. -/
def LineError.report : LineError → List String
  | unclosedQuote => ["Error: missing closing quote"]
  | unknown word =>
    let candidates := (Command.candidates word).map (s!"  {·.name}")
    [s!"Command not found: {word}"] ++
      (if candidates.length > 1 then "Candidates:" :: candidates else []) ++
      ["Use 'help' to see available commands."]
  | argumentCount c found =>
    [s!"Error: wrong number of arguments: got {found}, expected {c.parameters.length}",
      "Usage:", s!"  {c.usage}"]
  | badArgument c value cause =>
    [s!"Error: failed to parse argument value '{value}': {cause.message}",
      "Usage:", s!"  {c.usage}"]

/-- The request of a command with arguments. -/
def Request.ofCommand : Command → List String → Except LineError Request
  | .quit, _ => .ok .quit
  | .help, _ => .ok .help
  | .resume, [] => .ok .resume
  | .step, [] => .ok .step
  | .backtrace, [count] =>
    match Text.Numeral.read 10 0x10000000000000000 count.toList with
    | .ok n => .ok (.backtrace n)
    | .error cause => .error (.badArgument .backtrace count cause)
  | .registers, [] => .ok .registers
  | .board, [] => .ok .board
  | .peek, [address] => .ok (.peek address)
  | .halt, [] => .ok .halt
  | c, arguments => .error (.argumentCount c arguments.length)

/-- A line without the carriage return that may end it. -/
def dropReturn (line : List Char) : List Char :=
  if line.getLast? = some '\r' then line.dropLast else line

/-- The request of a line as it was typed. A blank line and a comment ask for
nothing. -/
def Request.ofLine (line : List Char) : Except LineError (Option Request) :=
  let line := Text.applyBackspaces (dropReturn line)
  if line.all Text.isBlank then .ok none
  else match Text.Words.split line with
    | none => .error .unclosedQuote
    | some [] => .ok none
    | some (word :: arguments) =>
      match Command.ofWord? word with
      | some c => (Request.ofCommand c arguments).map some
      | none => .error (.unknown word)

/-- The address that a text names: hexadecimal after `0x`, else decimal, else
hexadecimal. -/
def parseAddress (text : List Char) : Option Word :=
  let read (radix : Nat) (cs : List Char) : Option Word :=
    (Text.Numeral.read radix 0x100000000 cs).toOption.map (BitVec.ofNat 32)
  match text with
  | '0' :: 'x' :: cs => read 16 cs
  | cs => (read 10 cs).or (read 16 cs)

end TetrisMachine.Debugger
