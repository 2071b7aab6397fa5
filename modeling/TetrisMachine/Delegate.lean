import TetrisMachine.Word

/-!
# Control flow

Where control goes after an instruction, and who keeps the program counter. An
instruction does not see the program counter itself: it asks a delegate for the
address past it, and calls the delegate to jump or to branch.

* `Delegate.counter`: the delegate that is a program counter.
* `Delegate.recorder`: the delegate that notes where control goes.
* `Delegate.follow_counter`: a program counter goes where control goes.
-/

namespace TetrisMachine

/-- Where control goes after an instruction. -/
inductive Transfer where
  /-- To the instruction that follows. -/
  | advance
  /-- To an address. -/
  | jump (address : Word)
  /-- Forward by a signed number of words from the instruction that follows. -/
  | branch (offset : Word)
deriving DecidableEq, Repr

/-- The address control goes to, from the address of the instruction that
follows. -/
def Transfer.target (pc : Word) : Transfer → Word
  | advance => pc
  | jump address => address
  | branch offset => pc + offset * 4

/-- What keeps a program counter, by what it does when it is called. -/
structure Delegate (D : Type) where
  /-- The address past the instruction that executes. -/
  programCounter : D → Word
  jump : Word → D → D
  branch : Word → D → D

namespace Delegate

variable {D : Type}

/-- The delegate that is a program counter. -/
def counter : Delegate Word where
  programCounter pc := pc
  jump address _ := address
  branch offset pc := pc + offset * 4

/-- The delegate that notes where control goes, at a fixed program counter. -/
def recorder (pc : Word) : Delegate Transfer where
  programCounter _ := pc
  jump address _ := .jump address
  branch offset _ := .branch offset

/-- The delegate after it was told where control goes. It is not called for an
instruction that is followed by the next one. -/
def follow (δ : Delegate D) : Transfer → D → D
  | .advance, d => d
  | .jump address, d => δ.jump address d
  | .branch offset, d => δ.branch offset d

theorem follow_counter (t : Transfer) (pc : Word) : counter.follow t pc = t.target pc := by
  cases t <;> rfl

theorem follow_recorder (t : Transfer) (pc : Word) : (recorder pc).follow t .advance = t := by
  cases t <;> rfl

end Delegate

end TetrisMachine
