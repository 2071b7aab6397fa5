import TetrisMachine.Register

/-!
# The board

Ten registers hold the heights of the columns and one holds the score. Each rule
either changes the board or leaves it as it is.

* `ofRegisters_place`: placing a board and reading it back.
* `place_ofRegisters`: a board placed where it was read changes nothing.
-/

namespace TetrisMachine

/-- The columns and the score. -/
structure Board where
  columns : Vector Word 10
  score : Word
deriving DecidableEq, Repr

namespace Board

/-- The registers of the columns: `$t0` to `$t9`. -/
def columnRegisters : Vector Register 10 := Register.temporaries

/-- The register of the score: `$s0`. -/
def scoreRegister : Register := Register.s0

/-- The height at which a column tops out. -/
def top : Int := 20

/-- The board with nothing on it. -/
def empty : Board :=
  ⟨Vector.replicate 10 0, 0⟩

def ofRegisters (f : RegisterFile) : Board :=
  ⟨columnRegisters.map f.read, f.read scoreRegister⟩

/-- The column that a register holds. -/
def columnOf? (r : Register) : Option (Fin 10) :=
  (List.finRange 10).find? (columnRegisters[·] = r)

/-- Writes the board into its registers. -/
def place (b : Board) (f : RegisterFile) : RegisterFile :=
  .ofFn fun r =>
    if r = scoreRegister then b.score
    else match columnOf? r with
      | some i => b.columns[i]
      | none => f.read r

variable (b : Board)

/-- Whether every column holds at least so many rows. -/
def Holds (rows : Nat) : Prop :=
  ∀ i : Fin 10, (rows : Int) ≤ b.columns[i].toInt

instance (rows : Nat) : Decidable (b.Holds rows) :=
  Nat.decidableForallFin _

/-- Whether some column has reached the top. -/
def ToppedOut : Prop :=
  ∃ i : Fin 10, top ≤ b.columns[i].toInt

instance : Decidable b.ToppedOut :=
  Nat.decidableExistsFin _

/-- Whether every column is empty. -/
def Clear : Prop :=
  ∀ i : Fin 10, b.columns[i] = 0

instance : Decidable b.Clear :=
  Nat.decidableForallFin _

/-- Lowers every column and scores. -/
def lower (rows points : Nat) : Board :=
  ⟨b.columns.map (· - BitVec.ofNat 32 rows), b.score + BitVec.ofNat 32 points⟩

/-- Adds the same word to every column. -/
def raise (w : Word) : Board :=
  { b with columns := b.columns.map (· + w) }

/-- Doubles the score. -/
def double : Board :=
  { b with score := b.score * 2 }

/-- The text of the board: the names of the columns, then their heights, each
followed by a space. -/
def text : String :=
  let row (entries : List String) : String := String.join (entries.map (s!"{·} ")) ++ "\n"
  "The current board is: \n" ++ row (columnRegisters.toList.map (·.name)) ++
    row (b.columns.toList.map fun c => s!"{c.toInt}")

theorem columnOf?_columnRegisters (i : Fin 10) : columnOf? columnRegisters[i] = some i := by
  revert i
  decide

theorem columnRegisters_ne_scoreRegister (i : Fin 10) : columnRegisters[i] ≠ scoreRegister := by
  revert i
  decide

theorem columnRegisters_of_columnOf? {r : Register} {i : Fin 10} (h : columnOf? r = some i) :
    columnRegisters[i] = r := by
  obtain ⟨k⟩ := r
  revert k i
  decide

/-- **A board that is placed is read back.** -/
theorem ofRegisters_place (f : RegisterFile) : ofRegisters (b.place f) = b := by
  obtain ⟨columns, score⟩ := b
  simp only [ofRegisters, place, RegisterFile.read_ofFn, if_true, mk.injEq, and_true]
  refine Vector.ext fun i hi => ?_
  have hs := columnRegisters_ne_scoreRegister ⟨i, hi⟩
  have hc := columnOf?_columnRegisters ⟨i, hi⟩
  simp only [Fin.getElem_fin] at hs hc
  simp [hs, hc]

/-- A board placed where it was read changes nothing. -/
theorem place_ofRegisters (f : RegisterFile) : (ofRegisters f).place f = f := by
  refine RegisterFile.ext_read fun r => ?_
  simp only [place, ofRegisters, RegisterFile.read_ofFn]
  split
  · next h => rw [h]
  · split
    · next i h =>
      have := columnRegisters_of_columnOf? h
      simp only [Fin.getElem_fin] at this
      simp [this]
    · rfl

end Board

end TetrisMachine
