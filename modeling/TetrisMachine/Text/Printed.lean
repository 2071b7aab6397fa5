/-!
# Printed text

What is printed of a text where control sequences mean nothing: neither the
sequences nor control characters are, except for white space. A sequence begins
with an escape character, and what comes next tells where it ends. White space in
a short sequence or among the parameters of a control sequence is printed, and so
is what follows it, up to the next control character; there the sequence goes on.
A character beyond ASCII that is printed ends it.

* `printed`: what is printed of a text.
-/

namespace TetrisMachine.Text

/-- What is being read of a text with control sequences. -/
inductive SequencePart where
  | text
  /-- The character after an escape character. -/
  | escape
  /-- More characters of a short sequence. -/
  | intermediate
  /-- The parameters of a control sequence. -/
  | control
  /-- The parameters of a device control string: their start, the parameters
  proper, and what may follow them. -/
  | device | deviceParameters | deviceIntermediate
  /-- A string up to its terminator. -/
  | string
  /-- A command to the operating system, up to a bell. -/
  | command
deriving DecidableEq, Repr

/-- The control characters that are white space. -/
def isSpacing (c : Char) : Bool :=
  c = '\t' ∨ c = '\n' ∨ c = '\x0c' ∨ c = '\r'

/-- Whether a character is printed outside of control sequences. -/
def isPrinted (c : Char) : Bool :=
  isSpacing c ∨ (' ' ≤ c ∧ c ≠ '\x7f')

/-- Whether the byte of the string terminator occurs in the encoding of a character. -/
def holdsTerminator (c : Char) : Bool :=
  0x9c ∈ String.utf8EncodeChar c

namespace SequencePart

/-- The part after a character of a sequence that neither begins nor cancels one. -/
def next (c : Char) : SequencePart → SequencePart
  | text => text
  | escape =>
    if ' ' ≤ c ∧ c ≤ '/' then intermediate
    else if c = '[' then control
    else if c = ']' then command
    else if c = 'P' then device
    else if c = 'X' ∨ c = '^' ∨ c = '_' then string
    else if '0' ≤ c ∧ c ≤ '~' then text
    else escape
  | intermediate => if '0' ≤ c ∧ c ≤ '~' then text else intermediate
  | control => if '@' ≤ c ∧ c ≤ '~' then text else control
  | device =>
    if ' ' ≤ c ∧ c ≤ '/' then deviceIntermediate
    else if '0' ≤ c ∧ c ≤ '?' then deviceParameters
    else if '@' ≤ c ∧ c ≤ '~' then string
    else device
  | deviceParameters =>
    if ' ' ≤ c ∧ c ≤ '/' then deviceIntermediate
    else if '<' ≤ c ∧ c ≤ '~' then string
    else deviceParameters
  | deviceIntermediate => if '0' ≤ c ∧ c ≤ '~' then string else deviceIntermediate
  | string => if holdsTerminator c then text else string
  | command => if c = '\x07' then text else command

/-- Whether white space in the part is printed. -/
def showsSpace : SequencePart → Bool
  | text | escape | intermediate | control => true
  | _ => false

end SequencePart

/-- How far a text has been read. -/
structure SequenceState where
  part : SequencePart
  /-- Text is being printed, though a sequence may not have ended. -/
  shown : Bool
deriving DecidableEq, Repr

namespace SequenceState

/-- Whether a character that neither begins nor cancels a sequence is printed. -/
def shows (s : SequenceState) (c : Char) : Bool :=
  (isPrinted c && (s.shown || s.part = .text)) || (isSpacing c && s.part.showsSpace)

/-- The state after a character, and whether the character is printed. -/
def step (s : SequenceState) (c : Char) : SequenceState × Bool :=
  if c = '\x1b' then (⟨.escape, false⟩, false)
  else if c = '\x18' ∨ c = '\x1a' then (⟨.text, false⟩, false)
  else if s.shows c then (⟨if c ≤ '\x7f' then s.part else .text, true⟩, true)
  else (⟨s.part.next c, false⟩, false)

end SequenceState

/-- What is printed of the rest of a text. -/
def printedFrom (s : SequenceState) : List Char → List Char
  | [] => []
  | c :: cs =>
    let (s', shown) := s.step c
    if shown then c :: printedFrom s' cs else printedFrom s' cs

/-- What is printed of a text. -/
def printed (s : String) : String :=
  String.ofList (printedFrom ⟨.text, false⟩ s.toList)

end TetrisMachine.Text
