import TetrisMachine.Proofs.Execution.Outcome

/-!
# What operations read and write

The registers that an operation reads and those that it may write, the cell of memory
that it accesses, and whether it prints, passes control or rolls a die. An operation
keeps everything else, and does the same in two states that it cannot tell apart.

* `read_registers_of_notMem_writes`: an operation keeps the registers it does not write.
* `SameView`: two states that an operation cannot tell apart.
* `SameView.fault?_eq`, `SameView.read_registers_eq`: it does the same in both.
-/

namespace TetrisMachine

namespace Board

/-- The registers of the columns and of the score. -/
def registers : List Register :=
  columnRegisters.toList ++ [scoreRegister]

theorem mem_columnRegisters {i : Nat} (hi : i < 10) : columnRegisters[i] ∈ columnRegisters.toList :=
  Vector.mem_toList_iff.2 (Vector.getElem_mem hi)

variable {b b' : Board} {f g : RegisterFile} {r : Register}

/-- What a register holds after a board was placed depends on what the board has for
it, and on what it held before. -/
theorem read_place_congr (hcolumns : r ∈ columnRegisters.toList → b'.columns = b.columns)
    (hscore : r = scoreRegister → b'.score = b.score) (h : g.read r = f.read r) :
    (b'.place g).read r = (b.place f).read r := by
  simp only [place, RegisterFile.read_ofFn]
  by_cases hr : r = scoreRegister
  · rw [if_pos hr, if_pos hr, hscore hr]
  rw [if_neg hr, if_neg hr]
  cases hc : columnOf? r with
  | none => exact h
  | some i =>
    have hr : columnRegisters[i] = r := columnRegisters_of_columnOf? hc
    have hmem : r ∈ columnRegisters.toList := hr ▸ mem_columnRegisters i.isLt
    rw [hcolumns hmem]

/-- A board that has for a register what the register holds does not change it. -/
theorem read_place_eq (hcolumns : r ∈ columnRegisters.toList → b.columns = (ofRegisters f).columns)
    (hscore : r = scoreRegister → b.score = (ofRegisters f).score) :
    (b.place f).read r = f.read r := by
  rw [read_place_congr hcolumns hscore rfl, place_ofRegisters]

theorem read_place_of_notMem (b : Board) (f : RegisterFile) (h : r ∉ registers) :
    (b.place f).read r = f.read r := by
  refine read_place_eq (fun hr => absurd ?_ h) (fun hr => absurd ?_ h)
  · exact List.mem_append_left _ hr
  · exact List.mem_append_right _ (List.mem_singleton.2 hr)

theorem columns_ofRegisters_congr (h : ∀ r ∈ columnRegisters.toList, g.read r = f.read r) :
    (ofRegisters g).columns = (ofRegisters f).columns := by
  refine Vector.ext fun i hi => ?_
  simp only [ofRegisters, Vector.getElem_map]
  exact h _ (mem_columnRegisters hi)

theorem ofRegisters_congr (h : ∀ r ∈ registers, g.read r = f.read r) :
    ofRegisters g = ofRegisters f := by
  obtain ⟨hcolumns, hscore⟩ := List.forall_mem_append.1 h
  simp only [ofRegisters, mk.injEq]
  exact ⟨columns_ofRegisters_congr hcolumns, hscore _ (List.mem_singleton.2 rfl)⟩

/-- The score is not part of the text of a board. -/
theorem text_congr (h : b'.columns = b.columns) : b'.text = b.text := by
  unfold text
  rw [h]

end Board

namespace RegisterFile

/-- Writing the same word to two register files does not tell them apart. -/
theorem read_write_congr {f g : RegisterFile} {r : Register} (h : g.read r = f.read r)
    (d : Register) (w : Word) : (g.write d w).read r = (f.write d w).read r := by
  rw [read_write, read_write, h]

end RegisterFile

namespace Operation

/-- The registers that an operation reads. -/
def reads : Operation → List Register
  | harddrop _ s _ | ghostpiece _ s _ | slowgravity _ s _ => [s]
  | stack _ a b | garbage _ a b | attack _ a b | delay a b => [a, b]
  | hold v _ base => [v, base]
  | next _ _ base => [base]
  | lineclear a b _ | nonclear a b _ => [a, b]
  | drop d => [d]
  | rotate a b => [a, b]
  | combo _ | viewboard => Board.columnRegisters.toList
  | downstack | tetris | topout | allclear => Board.registers
  | shift _ => []

/-- The registers that an operation may write. -/
def writes : Operation → List Register
  | harddrop d _ _ | ghostpiece d _ _ | slowgravity d _ _ => [d]
  | stack d _ _ | garbage d _ _ => [d]
  | attack d _ _ => [d, .hi, .lo]
  | delay _ _ => [.hi, .lo]
  | next d _ _ => [d]
  | drop d => [d]
  | rotate a b => [a, b]
  | combo _ => Board.columnRegisters.toList
  | downstack | tetris | topout => Board.registers
  | allclear => [Board.scoreRegister]
  | hold .. | lineclear .. | nonclear .. | viewboard | shift _ => []

/-- Whether an operation may print. -/
def prints : Operation → Bool
  | ghostpiece .. | topout | allclear | viewboard | tetris => true
  | _ => false

/-- Whether an operation may pass control elsewhere than to the next instruction. -/
def controls : Operation → Bool
  | shift _ | lineclear .. | nonclear .. => true
  | _ => false

/-- Whether an operation rolls a die. -/
def rolls : Operation → Bool
  | drop _ => true
  | _ => false

section

variable {G : Type} (c : Cpu G)

/-- The address that an operation accesses. -/
def address? : Operation → Option Word
  | hold _ offset base | next _ offset base => some (c.address offset base)
  | _ => none

/-- The address that an operation stores at, and what it stores. -/
def stored? : Operation → Option (Word × Word)
  | hold v offset base => some (c.address offset base, c.registers.read v)
  | _ => none

variable {op : Operation}

/-- An operation writes the one cell that it stores in, or none. -/
theorem memory_eq (op : Operation) :
    op.memory c =
      match op.stored? c with
      | some (address, w) => c.memory.setCell address w
      | none => c.memory := by
  cases op <;> rfl

theorem text?_of_not_prints (h : op.prints = false) : op.text? c = none := by
  cases op with
  | ghostpiece | topout | allclear | viewboard | tetris => cases h
  | _ => rfl

theorem transfer_of_not_controls (h : op.controls = false) (pc : Word) :
    op.transfer c pc = .advance := by
  cases op with
  | shift | lineclear | nonclear => cases h
  | _ => rfl

variable [RandomSource G]

theorem random_of_not_rolls (h : op.rolls = false) : op.random c = c.random := by
  cases op with
  | drop => cases h
  | _ => rfl

/-- **An operation keeps the registers that it does not write.** -/
theorem read_registers_of_notMem_writes {r : Register} (h : r ∉ op.writes) :
    (op.registers c).read r = c.registers.read r := by
  cases op with
  | harddrop d | ghostpiece d | slowgravity d | stack d | garbage d | next d =>
    have hd : r ≠ d := by simpa [writes] using h
    exact RegisterFile.read_write_of_ne _ _ hd.symm
  | attack d a b =>
    obtain ⟨hd, hhi, hlo⟩ : r ≠ d ∧ r ≠ .hi ∧ r ≠ .lo := by simpa [writes] using h
    simp only [registers, RegisterFile.read_write_of_ne _ _ hlo.symm,
      RegisterFile.read_write_of_ne _ _ hhi.symm, RegisterFile.read_write_of_ne _ _ hd.symm]
  | delay a b =>
    obtain ⟨hhi, hlo⟩ : r ≠ .hi ∧ r ≠ .lo := by simpa [writes] using h
    simp only [registers]
    split
    · simp only [RegisterFile.read_write_of_ne _ _ hlo.symm,
        RegisterFile.read_write_of_ne _ _ hhi.symm]
    · rfl
  | rotate a b =>
    obtain ⟨ha, hb⟩ : r ≠ a ∧ r ≠ b := by simpa [writes] using h
    simp only [registers, RegisterFile.read_write_of_ne _ _ hb.symm,
      RegisterFile.read_write_of_ne _ _ ha.symm]
  | drop d =>
    have hd : r ≠ d := by simpa [writes] using h
    simp only [registers]
    split
    · exact RegisterFile.read_write_of_ne _ _ hd.symm
    · rfl
  -- the rules of the board write some of its registers or place what they held
  | downstack | tetris | topout =>
    simp only [registers]
    split
    · exact Board.read_place_of_notMem _ _ h
    · rfl
  | combo imm => exact Board.read_place_eq (fun hr => absurd hr h) (fun _ => rfl)
  | allclear =>
    simp only [registers]
    split
    · exact Board.read_place_eq (fun _ => rfl) (fun hr => absurd (List.mem_singleton.2 hr) h)
    · rfl
  | hold | lineclear | nonclear | viewboard | shift => rfl

end

/-! ### States that look alike -/

section

variable {G : Type} {op : Operation} {c c' : Cpu G} {r : Register}

/-- The operation finds the same in both states: in the registers it reads, in the cell
it accesses, and in the random source if it rolls a die. The segments are the same. -/
structure SameView (op : Operation) (c c' : Cpu G) : Prop where
  registers : ∀ r ∈ op.reads, c'.registers.read r = c.registers.read r
  segment : ∀ address, c'.memory.fault? address = c.memory.fault? address
  cell : ∀ address ∈ op.address? c, c'.memory.cell address = c.memory.cell address
  random : op.rolls = true → c'.random = c.random

namespace SameView

variable (h : op.SameView c c')
include h

theorem board_eq (hr : op.reads = Board.registers) : c'.board = c.board :=
  Board.ofRegisters_congr (hr ▸ h.registers)

theorem columns_eq (hr : op.reads = Board.columnRegisters.toList) :
    c'.board.columns = c.board.columns :=
  Board.columns_ofRegisters_congr (hr ▸ h.registers)

theorem stored?_eq : op.stored? c' = op.stored? c := by
  have hreads := h.registers
  cases op with
  | hold v offset base =>
    simp only [reads, List.forall_mem_cons] at hreads
    simp only [stored?, Cpu.address, hreads]
  | _ => rfl

theorem text?_eq : op.text? c' = op.text? c := by
  have hreads := h.registers
  cases op with
  | ghostpiece d s imm =>
    simp only [reads, List.forall_mem_cons] at hreads
    simp only [text?, hreads]
  | topout | allclear | tetris => simp only [text?, h.board_eq rfl]
  | viewboard => exact congrArg some (Board.text_congr (h.columns_eq rfl))
  | _ => rfl

theorem transfer_eq (pc : Word) : op.transfer c' pc = op.transfer c pc := by
  have hreads := h.registers
  cases op with
  | lineclear a b offset | nonclear a b offset =>
    simp only [reads, List.forall_mem_cons] at hreads
    simp only [transfer, hreads]
  | _ => rfl

variable [RandomSource G]

/-- **The operation fails in both states or in neither**, and for the same reason. -/
theorem fault?_eq : op.fault? c' = op.fault? c := by
  have hreads := h.registers
  cases op with
  | harddrop d s imm | stack d a b | garbage d a b =>
    simp only [reads, List.forall_mem_cons] at hreads
    simp only [fault?, hreads]
  | hold v offset base | next d offset base =>
    simp only [reads, List.forall_mem_cons] at hreads
    simp only [fault?, Cpu.address, hreads, h.segment]
  | drop d => simp only [fault?, h.random rfl]
  | _ => rfl

theorem random_eq (hrolls : op.rolls = true) : op.random c' = op.random c := by
  cases op with
  | drop d => simp only [Operation.random, h.random rfl]
  | _ => cases hrolls

open RegisterFile in
/-- **The operation leaves the same in a register** that holds the same in both states. -/
theorem read_registers_eq (hr : c'.registers.read r = c.registers.read r) :
    (op.registers c').read r = (op.registers c).read r := by
  have hreads := h.registers
  cases op with
  | harddrop d _ _ | ghostpiece d _ _ | slowgravity d _ _ | stack d _ _ | garbage d _ _ =>
    simp only [reads, List.forall_mem_cons] at hreads
    simp only [Operation.registers, hreads]
    exact read_write_congr hr d _
  | attack d a b =>
    simp only [reads, List.forall_mem_cons] at hreads
    simp only [Operation.registers, hreads]
    exact read_write_congr (read_write_congr (read_write_congr hr d _) .hi _) .lo _
  | delay a b =>
    simp only [reads, List.forall_mem_cons] at hreads
    simp only [Operation.registers, hreads]
    split
    · exact read_write_congr (read_write_congr hr .hi _) .lo _
    · exact hr
  | next d offset base =>
    simp only [reads, List.forall_mem_cons] at hreads
    have hcell : c'.memory.cell (c.address offset base) = c.memory.cell (c.address offset base) :=
      h.cell _ rfl
    have haddress : c'.address offset base = c.address offset base := by
      simp only [Cpu.address, hreads]
    simp only [Operation.registers, haddress, hcell]
    exact read_write_congr hr d _
  | drop d =>
    simp only [reads, List.forall_mem_cons] at hreads
    simp only [Operation.registers, h.random rfl, hreads]
    split
    · exact read_write_congr hr d _
    · exact hr
  | rotate a b =>
    simp only [reads, List.forall_mem_cons] at hreads
    simp only [Operation.registers, hreads]
    exact read_write_congr (read_write_congr hr a _) b _
  -- the rules of the board place boards that are alike where they are placed
  | downstack | tetris | topout | allclear =>
    simp only [Operation.registers, h.board_eq rfl]
    split
    · exact Board.read_place_congr (fun _ => rfl) (fun _ => rfl) hr
    · exact hr
  | combo imm =>
    refine Board.read_place_congr (fun _ => ?_) (fun hscore => ?_) hr
    · simp only [Board.raise, h.columns_eq rfl]
    · subst hscore
      exact hr
  | hold | lineclear | nonclear | viewboard | shift => exact hr

end SameView

end

end Operation

end TetrisMachine
