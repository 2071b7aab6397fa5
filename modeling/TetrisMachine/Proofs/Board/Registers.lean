import TetrisMachine.Proofs.Execution.Footprint

/-!
# The board, register by register

What the rules of the board ask and what they do, said of the registers and not of the
board they hold: every rule asks the same of each column, and changes each column in the
same way.

* `Board.read_place_map`: what a register holds after every column was changed alike.
* `Board.holds_iff`, `Board.toppedOut_iff`, `Board.clear_iff`: what the rules ask.
-/

namespace TetrisMachine

namespace Board

variable {f : RegisterFile} {r : Register}

/-- The board with every column changed alike, and the score. -/
def map (column score : Word → Word) (b : Board) : Board :=
  ⟨b.columns.map column, score b.score⟩

theorem lower_eq_map (b : Board) (rows points : Nat) :
    b.lower rows points = b.map (· - BitVec.ofNat 32 rows) (· + BitVec.ofNat 32 points) := rfl

theorem raise_eq_map (b : Board) (w : Word) : b.raise w = b.map (· + w) id := rfl

theorem double_eq_map (b : Board) : b.double = b.map id (· * 2) := by
  simp [double, map]

theorem empty_eq_map (b : Board) : empty = b.map (fun _ => 0) fun _ => 0 := by
  rw [empty, map, Vector.map_const']

theorem exists_columnRegisters_of_mem (h : r ∈ columnRegisters.toList) :
    ∃ i : Fin 10, columnRegisters.get i = r := by
  obtain ⟨i, hi, rfl⟩ := Vector.mem_iff_getElem.1 (Vector.mem_toList_iff.1 h)
  exact ⟨⟨i, hi⟩, rfl⟩

theorem notMem_of_columnOf?_eq_none (h : columnOf? r = none) : r ∉ columnRegisters.toList := by
  intro hr
  obtain ⟨i, rfl⟩ := exists_columnRegisters_of_mem hr
  have hi : columnOf? (columnRegisters.get i) = some i := columnOf?_columnRegisters i
  rw [hi] at h
  cases h

/-- **What a register holds after the columns and the score were changed.** -/
theorem read_place_map (column score : Word → Word) (f : RegisterFile) (r : Register) :
    (((ofRegisters f).map column score).place f).read r =
      if r = scoreRegister then score (f.read r)
      else if r ∈ columnRegisters.toList then column (f.read r)
      else f.read r := by
  simp only [place, RegisterFile.read_ofFn]
  by_cases hs : r = scoreRegister
  · rw [if_pos hs, if_pos hs, hs]
    rfl
  rw [if_neg hs, if_neg hs]
  cases hc : columnOf? r with
  | none => rw [if_neg (notMem_of_columnOf?_eq_none hc)]
  | some i =>
    have hi : columnRegisters[i] = r := columnRegisters_of_columnOf? hc
    subst hi
    have hmem : columnRegisters[i] ∈ columnRegisters.toList := mem_columnRegisters i.isLt
    rw [if_pos hmem]
    simp [map, ofRegisters]

theorem forall_columns (P : Word → Prop) (f : RegisterFile) :
    (∀ i : Fin 10, P ((ofRegisters f).columns.get i)) ↔
      ∀ r ∈ columnRegisters.toList, P (f.read r) := by
  have hcolumn (i : Fin 10) : (ofRegisters f).columns.get i = f.read (columnRegisters.get i) :=
    Vector.getElem_map ..
  constructor
  · intro h r hr
    obtain ⟨i, rfl⟩ := exists_columnRegisters_of_mem hr
    rw [← hcolumn]
    exact h i
  · intro h i
    rw [hcolumn]
    exact h _ (mem_columnRegisters i.isLt)

theorem holds_iff {rows : Nat} :
    (ofRegisters f).Holds rows ↔ ∀ r ∈ columnRegisters.toList, (rows : Int) ≤ (f.read r).toInt :=
  forall_columns (fun w => (rows : Int) ≤ w.toInt) f

theorem clear_iff : (ofRegisters f).Clear ↔ ∀ r ∈ columnRegisters.toList, f.read r = 0 :=
  forall_columns (fun w => w = 0) f

theorem toppedOut_iff :
    (ofRegisters f).ToppedOut ↔ ∃ r ∈ columnRegisters.toList, top ≤ (f.read r).toInt := by
  have hnone : (∀ i : Fin 10, ¬ top ≤ (ofRegisters f).columns[i].toInt) ↔ _ :=
    forall_columns (fun w => ¬ top ≤ w.toInt) f
  simpa [ToppedOut] using Decidable.not_iff_not.2 hnone

end Board

end TetrisMachine
