import TetrisMachine.Text.Blank
import TetrisMachine.Text.Numeral
import TetrisMachine.Word

/-!
# Program listings

A program is written with one hexadecimal word on a line. A `#` begins a comment,
blanks around the word and empty lines do not count, and a word may begin with
`0x` and have underscores anywhere.

* `Listing.parse`: the words of a listing, or the first line that is wrong.
-/

namespace TetrisMachine

/-- A line of a listing that holds no word. -/
structure ListingError where
  /-- The number of the line, from one on. -/
  number : Nat
  /-- What the line holds. -/
  text : String
  cause : Text.NumeralError
deriving DecidableEq, Repr

def ListingError.message (e : ListingError) : String :=
  s!"line {e.number}: `{e.text}` is not an instruction word"

namespace Listing

/-- The lines of a text: what stands between the line ends. -/
def lines (cs : List Char) : List (List Char) :=
  cs.splitOn '\n'

/-- What a line holds: the part before the comment, without blanks around it. -/
def content (line : List Char) : List Char :=
  Text.trim (line.takeWhile (· ≠ '#'))

/-- The digits of a word, without the mark of its radix and underscores. -/
def digits : List Char → List Char
  | '0' :: 'x' :: cs => cs.filter (· ≠ '_')
  | '0' :: 'X' :: cs => cs.filter (· ≠ '_')
  | cs => cs.filter (· ≠ '_')

/-- The word that a line holds, if it holds anything. -/
def parseLine (number : Nat) (line : List Char) : Except ListingError (Option Word) :=
  let text := content line
  if text.isEmpty then .ok none
  else match Text.Numeral.read 16 0x100000000 (digits text) with
    | .ok n => .ok (some (BitVec.ofNat 32 n))
    | .error cause => .error ⟨number, String.ofList text, cause⟩

/-- The words of some numbered lines. -/
def parseLines : Nat → List (List Char) → Except ListingError (List Word)
  | _, [] => .ok []
  | number, line :: rest => do
    let word ← parseLine number line
    let words ← parseLines (number + 1) rest
    return word.toList ++ words

/-- The words of a listing, in the order of the lines. -/
def parse (s : String) : Except ListingError (List Word) :=
  parseLines 1 (lines s.toList)

end Listing

end TetrisMachine
