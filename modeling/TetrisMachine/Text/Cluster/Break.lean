import TetrisMachine.Text.Cluster.Tables

/-!
# Cluster breaks

Where a text is divided into clusters, which are what a reader takes for single
characters: an accent goes with its letter, a flag is made of two letters, the
parts of a syllable stay together. These are the extended grapheme clusters of
Unicode.

* `BreakClass.of`: the class of a character.
* `ClusterEnd.joins`: whether a character of some class joins a cluster.
-/

namespace TetrisMachine.Text

/-- What a character does where clusters are divided. -/
inductive BreakClass where
  | carriageReturn
  | lineFeed
  | control
  /-- Extends the character before it. -/
  | extend
  /-- Extends the character before it and binds consonants. -/
  | linker
  /-- Extends the character before it and parts consonants. -/
  | nonJoiner
  /-- Extends the character before it and binds pictographs. -/
  | joiner
  | spacingMark
  /-- Binds the character after it. -/
  | prepend
  /-- A letter of a flag. -/
  | regionalIndicator
  /-- The consonant that begins a Hangul syllable. -/
  | leading
  /-- The vowel of a Hangul syllable. -/
  | vowel
  /-- The consonant that ends a Hangul syllable. -/
  | trailing
  /-- A Hangul syllable without an ending consonant. -/
  | openSyllable
  /-- A Hangul syllable with an ending consonant. -/
  | closedSyllable
  | pictograph
  | consonant
  | other
deriving DecidableEq, Repr

namespace BreakClass

/-- The vowels of Hangul syllables, and those of one more script that behave so. -/
def vowelRanges : List (Nat × Nat) :=
  [(0x1160, 0x11a7), (0xd7b0, 0xd7c6), (0x16d63, 0x16d63), (0x16d67, 0x16d6a)]

/-- The class of a character that is neither a control nor an extending one. The
syllables of Hangul are in the order of their 27 ending consonants, each row of
them after the syllable without one. -/
def ofBase (c : Char) : BreakClass :=
  if inRanges spacingRanges c then spacingMark
  else if inRanges prependRanges c then prepend
  else if inRanges [(0x1f1e6, 0x1f1ff)] c then regionalIndicator
  else if inRanges [(0x1100, 0x115f), (0xa960, 0xa97c)] c then leading
  else if inRanges vowelRanges c then vowel
  else if inRanges [(0x11a8, 0x11ff), (0xd7cb, 0xd7fb)] c then trailing
  else if inRanges [(0xac00, 0xd7a3)] c then
    if (c.toNat - 0xac00) % 28 = 0 then openSyllable else closedSyllable
  else if inRanges pictographRanges c then pictograph
  else if inRanges consonantRanges c then consonant
  else other

/-- The class of a character. -/
def of (c : Char) : BreakClass :=
  if c = '\r' then carriageReturn
  else if c = '\n' then lineFeed
  else if c = '\u200d' then joiner
  else if c = '\u200c' then nonJoiner
  else if inRanges controlRanges c then control
  else if inRanges extendRanges c then extend
  else if inRanges linkerRanges c then linker
  else ofBase c

/-- Whether clusters are divided before and after the character. -/
def standsAlone : BreakClass → Bool
  | carriageReturn | lineFeed | control => true
  | _ => false

/-- Whether the character joins whatever is before it. -/
def isExtending : BreakClass → Bool
  | extend | linker | nonJoiner | joiner => true
  | _ => false

end BreakClass

/-- How far a cluster has come from a consonant to the next one. -/
inductive Conjunct where
  | none
  /-- A consonant, and nothing after it but extending characters. -/
  | consonant
  /-- The same with a linker among them. -/
  | linked
deriving DecidableEq, Repr

/-- What the end of a cluster shows to the character after it. -/
structure ClusterEnd where
  last : BreakClass
  /-- The last character is a letter of a flag that lacks the other one. -/
  halfFlag : Bool
  /-- There is a pictograph, and nothing after it but extending characters and at
  most one joiner, at the end. -/
  pictograph : Bool
  conjunct : Conjunct
deriving DecidableEq, Repr

namespace ClusterEnd

/-- The end of a cluster that a character begins. -/
def of (k : BreakClass) : ClusterEnd where
  last := k
  halfFlag := k = .regionalIndicator
  pictograph := k = .pictograph
  conjunct := if k = .consonant then .consonant else .none

variable (e : ClusterEnd)

/-- Whether a character joins the cluster. -/
def joins (k : BreakClass) : Bool :=
  match e.last, k with
  | .carriageReturn, .lineFeed => true
  | last, k =>
    if last.standsAlone || k.standsAlone then false
    else if k.isExtending || k = .spacingMark || last = .prepend then true
    else match last, k with
      | .leading, .leading | .leading, .vowel => true
      | .leading, .openSyllable | .leading, .closedSyllable => true
      | .openSyllable, .vowel | .openSyllable, .trailing => true
      | .vowel, .vowel | .vowel, .trailing => true
      | .closedSyllable, .trailing | .trailing, .trailing => true
      | .joiner, .pictograph => e.pictograph
      | .regionalIndicator, .regionalIndicator => e.halfFlag
      | _, .consonant => e.conjunct = .linked
      | _, _ => false

/-- The end of the cluster after a character has joined it. -/
def push (k : BreakClass) : ClusterEnd where
  last := k
  halfFlag := k = .regionalIndicator && !e.halfFlag
  pictograph := k = .pictograph || (k.isExtending && e.pictograph && e.last ≠ .joiner)
  conjunct := match k with
    | .consonant => .consonant
    | .linker => if e.conjunct = .none then .none else .linked
    | .extend | .joiner => e.conjunct
    | _ => .none

end ClusterEnd

end TetrisMachine.Text
