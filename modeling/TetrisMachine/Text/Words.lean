/-!
# Words of a line

Splitting a line into words as a shell does: blanks separate words, single quotes
keep everything, double quotes keep everything but some escapes, a backslash
keeps the character after it, and a `#` where a word could begin starts a comment.

* `Words.split`: the words of a line, missing if a quote is not closed.
-/

namespace TetrisMachine.Text.Words

/-- What is being read. -/
inductive Mode where
  | betweenWords
  | word
  | singleQuoted
  | doubleQuoted
  | comment
deriving DecidableEq, Repr

/-- The characters that separate words. -/
def isSeparator (c : Char) : Bool :=
  c = ' ' ∨ c = '\t' ∨ c = '\n'

/-- The characters that a backslash keeps between double quotes. Before any other
character the backslash stands for itself. -/
def isEscapable (c : Char) : Bool :=
  c = '$' ∨ c = '\x60' ∨ c = '"' ∨ c = '\\'

/-- The words of what is left of a line. The word being read is given backwards. -/
def splitFrom : Mode → List Char → List Char → Option (List String)
  | .betweenWords, _, [] => some []
  | .betweenWords, _, '\\' :: [] => some ["\\"]
  | .betweenWords, _, '\\' :: c :: cs =>
    if c = '\n' then splitFrom .betweenWords [] cs else splitFrom .word [c] cs
  | .betweenWords, _, c :: cs =>
    if c = '\'' then splitFrom .singleQuoted [] cs
    else if c = '"' then splitFrom .doubleQuoted [] cs
    else if isSeparator c then splitFrom .betweenWords [] cs
    else if c = '#' then splitFrom .comment [] cs
    else splitFrom .word [c] cs
  | .word, w, [] => some [String.ofList w.reverse]
  | .word, w, '\\' :: [] => some [String.ofList ('\\' :: w).reverse]
  | .word, w, '\\' :: c :: cs => splitFrom .word (if c = '\n' then w else c :: w) cs
  | .word, w, c :: cs =>
    if c = '\'' then splitFrom .singleQuoted w cs
    else if c = '"' then splitFrom .doubleQuoted w cs
    else if isSeparator c then
      (splitFrom .betweenWords [] cs).map (String.ofList w.reverse :: ·)
    else splitFrom .word (c :: w) cs
  | .singleQuoted, _, [] => none
  | .singleQuoted, w, c :: cs =>
    if c = '\'' then splitFrom .word w cs else splitFrom .singleQuoted (c :: w) cs
  | .doubleQuoted, _, [] => none
  | .doubleQuoted, _, '\\' :: [] => none
  | .doubleQuoted, w, '\\' :: c :: cs =>
    if c = '\n' then splitFrom .doubleQuoted w cs
    else if isEscapable c then splitFrom .doubleQuoted (c :: w) cs
    else splitFrom .doubleQuoted (c :: '\\' :: w) cs
  | .doubleQuoted, w, c :: cs =>
    if c = '"' then splitFrom .word w cs else splitFrom .doubleQuoted (c :: w) cs
  | .comment, _, [] => some []
  | .comment, _, c :: cs =>
    if c = '\n' then splitFrom .betweenWords [] cs else splitFrom .comment [] cs

/-- The words of a line. -/
def split (line : List Char) : Option (List String) :=
  splitFrom .betweenWords [] line

end TetrisMachine.Text.Words
