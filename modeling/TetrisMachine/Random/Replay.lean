import TetrisMachine.Random.Source

/-!
# Recorded draws

A source that gives the words of a list, over and over.
-/

namespace TetrisMachine

/-- A list of draws, and how many have been given. -/
structure Replay where
  draws : Array Word
  used : Nat
deriving DecidableEq, Repr

namespace Replay

/-- The draws from the first one on. -/
def ofList (draws : List Word) : Replay :=
  ⟨draws.toArray, 0⟩

/-- Once every draw has been given, they come again. -/
instance : RandomSource Replay where
  draw r := (r.draws.getD (r.used % r.draws.size) 0, { r with used := r.used + 1 })
  patience r := r.draws.size

end Replay

end TetrisMachine
