import TetrisMachine.Random.Source

/-!
# The seeded generator

The generator xoshiro256++, whose four words are filled by the generator PCG32
from a seed. A draw is the high half of an output.

* `Xoshiro.ofSeed`: the generator of a seed.
-/

namespace TetrisMachine

/-- The state of PCG32 after a step. -/
def pcgStep (s : UInt64) : UInt64 :=
  s * 6364136223846793005 + 11634580027462260723

/-- The output of PCG32 in a state: some bits of the state, rotated to the right
by its top five bits. -/
def pcgOutput (s : UInt64) : UInt32 :=
  let x := (((s >>> 18) ^^^ s) >>> 27).toUInt32
  let r := (s >>> 59).toUInt32
  (x >>> r) ||| (x <<< (32 - r))

/-- Two outputs of PCG32 as one word, low half first, and the state after them. -/
def pcgWord (s : UInt64) : UInt64 × UInt64 :=
  let low := pcgStep s
  let high := pcgStep low
  ((pcgOutput low).toUInt64 ||| ((pcgOutput high).toUInt64 <<< 32), high)

/-- A state of xoshiro256++. -/
structure Xoshiro where
  s0 : UInt64
  s1 : UInt64
  s2 : UInt64
  s3 : UInt64
deriving DecidableEq, Repr

namespace Xoshiro

/-- The first words of PCG32 from the seed. -/
def ofSeed (seed : UInt64) : Xoshiro :=
  let (s0, seed) := pcgWord seed
  let (s1, seed) := pcgWord seed
  let (s2, seed) := pcgWord seed
  let (s3, _) := pcgWord seed
  ⟨s0, s1, s2, s3⟩

def rotateLeft (x k : UInt64) : UInt64 :=
  (x <<< k) ||| (x >>> (64 - k))

def output (g : Xoshiro) : UInt64 :=
  rotateLeft (g.s0 + g.s3) 23 + g.s0

def step (g : Xoshiro) : Xoshiro :=
  let s2 := g.s2 ^^^ g.s0
  let s3 := g.s3 ^^^ g.s1
  ⟨g.s0 ^^^ s3, g.s1 ^^^ s2, s2 ^^^ (g.s1 <<< 17), rotateLeft s3 45⟩

/-- After as many draws as there are states, a state has come back. -/
instance : RandomSource Xoshiro where
  draw g := ((g.output >>> 32).toBitVec.setWidth 32, g.step)
  patience _ := 1 <<< 256

end Xoshiro

end TetrisMachine
