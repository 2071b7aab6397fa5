import Mathlib.Algebra.BigOperators.Group.List.Basic
import Mathlib.Algebra.Ring.Int.Defs
import TetrisMachine.Proofs.Board.Registers
import TetrisMachine.Proofs.Execution.Sequence
import TetrisMachine.Proofs.InstructionSet.Operands

/-!
# Combos add up

A `combo` raises every column of the board by its immediate and leaves the other registers alone.
The columns wrap, but going from a number to the 32 bits that hold it keeps sums, so combos in
sequence raise every column by the sum of their immediates, whatever the order and whatever wraps on
the way.

* `RegisterFile.read_raise`: what a register holds after the columns were raised.
* `RegisterFile.raise_raise`: raising twice is raising by the sum.
* `Combo.outcomes_instruction`: combos in sequence succeed and raise the columns by their total.
* `Combo.combos_add_up`: the columns, the other registers, reordering, and a total of zero.
-/

namespace TetrisMachine

open Board

namespace RegisterFile

/-- Every column of the board is raised by a number, in the 32 bits that hold it. -/
def raise (n : Int) (f : RegisterFile) : RegisterFile :=
  ((ofRegisters f).raise (BitVec.ofInt 32 n)).place f

variable (f : RegisterFile) (m n : Int)

/-- A column is raised, and any other register keeps what it holds. -/
theorem read_raise (r : Register) :
    (f.raise n).read r =
      if r ∈ columnRegisters.toList then f.read r + BitVec.ofInt 32 n else f.read r := by
  rw [raise, raise_eq_map, read_place_map]
  by_cases hs : r = scoreRegister
  · -- the score is no column
    have hcolumn : r ∉ columnRegisters.toList := by
      rw [hs]
      decide
    rw [if_pos hs, if_neg hcolumn]
    rfl
  · rw [if_neg hs]

/-- Raising twice is raising by the sum. -/
theorem raise_raise : (f.raise m).raise n = f.raise (m + n) := by
  refine ext_read fun r => ?_
  rw [read_raise, read_raise, read_raise]
  by_cases hr : r ∈ columnRegisters.toList
  · rw [if_pos hr, if_pos hr, if_pos hr, BitVec.add_assoc, ← BitVec.ofInt_add]
  · rw [if_neg hr, if_neg hr, if_neg hr]

/-- Raising by a number that 32 bits do not tell from zero changes nothing. -/
theorem raise_eq_self {n : Int} (h : (2 ^ 32 : Int) ∣ n) : f.raise n = f := by
  have hzero : BitVec.ofInt 32 n = 0#32 := by
    apply BitVec.eq_of_toInt_eq
    rw [BitVec.toInt_ofInt, BitVec.toInt_zero]
    exact Int.bmod_eq_zero_of_dvd h
  refine ext_read fun r => ?_
  rw [read_raise, hzero, BitVec.add_zero, ite_self]

end RegisterFile

namespace Combo

/-- The `combo` of an immediate. -/
def instruction (imm : Word) : Instruction :=
  Mnemonic.combo.instruction [imm]

/-- The number that an immediate stands for: its low 16 bits, in two's complement. -/
def amount (imm : Word) : Int :=
  (imm.setWidth 16).toInt

/-- What immediates add up to, as a number that does not wrap. -/
def total (imms : List Word) : Int :=
  (imms.map amount).sum

theorem total_cons (imm : Word) (imms : List Word) :
    total (imm :: imms) = amount imm + total imms :=
  List.sum_cons

/-- The order does not count for the total. -/
theorem total_perm {imms imms' : List Word} (h : imms.Perm imms') : total imms = total imms' :=
  (h.map amount).sum_eq

theorem ofInt_amount (imm : Word) : BitVec.ofInt 32 (amount imm) = signExtend16 imm := by
  rw [amount, ← toInt_signExtend16, BitVec.ofInt_toInt]

variable {G D : Type} [RandomSource G]

/-- **A combo succeeds and raises the columns by its immediate**, and does nothing else. -/
theorem outcome_instruction (δ : Delegate D) (imm : Word) (c : Cpu G) (d : D) :
    (instruction imm).outcome δ (c, d) =
      (.ok (), ({ c with registers := c.registers.raise (amount imm) }, d)) := by
  have hop : (instruction imm).operation = .ok (.combo imm) :=
    Operation.operation_instruction (.combo imm) rfl
  have hregisters : (Operation.combo imm).registers c = c.registers.raise (amount imm) := by
    rw [RegisterFile.raise, ofInt_amount]
    rfl
  rw [Instruction.outcome_of_no_fault hop rfl, Operation.update, hregisters]
  rfl

/-- **Combos in sequence all succeed and raise the columns by their total.** -/
theorem outcomes_instruction (δ : Delegate D) (imms : List Word) (c : Cpu G) (d : D) :
    Instruction.outcomes δ (imms.map instruction) (c, d) =
      (List.replicate imms.length (.ok ()),
        ({ c with registers := c.registers.raise (total imms) }, d)) := by
  induction imms generalizing c with
  | nil =>
    have hnone : c.registers.raise (total []) = c.registers :=
      c.registers.raise_eq_self (Int.dvd_zero _)
    rw [hnone]
    rfl
  | cons imm imms ih =>
    rw [List.map_cons, Instruction.outcomes, outcome_instruction]
    dsimp only
    rw [ih, RegisterFile.raise_raise, ← total_cons]
    rfl

/-- **Combos add up in any order**, in every state. A list of them succeeds and raises each of the
ten columns by the sum of the immediates, modulo `2 ^ 32`; every other register keeps what it holds,
and nothing else changes. So every reordering of the list does the same, and a list whose sum is
zero modulo `2 ^ 32` does nothing. -/
theorem combos_add_up (δ : Delegate D) (c : Cpu G) (d : D) (imms : List Word) :
    let is := imms.map instruction
    (∃ g, Instruction.outcomes δ is (c, d) =
        (List.replicate is.length (.ok ()), ({ c with registers := g }, d)) ∧
      (∀ r ∈ columnRegisters.toList,
        g.read r = c.registers.read r + BitVec.ofInt 32 (total imms)) ∧
      ∀ r ∉ columnRegisters.toList, g.read r = c.registers.read r) ∧
    (∀ imms' : List Word, imms'.Perm imms →
      Instruction.outcomes δ (imms'.map instruction) (c, d) = Instruction.outcomes δ is (c, d)) ∧
    ((2 ^ 32 : Int) ∣ total imms →
      Instruction.outcomes δ is (c, d) = (List.replicate is.length (.ok ()), (c, d))) := by
  intro is
  have hlength : is.length = imms.length := List.length_map ..
  have hrun : Instruction.outcomes δ is (c, d) = _ := outcomes_instruction δ imms c d
  refine ⟨⟨c.registers.raise (total imms), ?_, fun r hr => ?_, fun r hr => ?_⟩, ?_, ?_⟩
  · rw [hlength]
    exact hrun
  · rw [RegisterFile.read_raise, if_pos hr]
  · rw [RegisterFile.read_raise, if_neg hr]
  · intro imms' hperm
    rw [hrun, outcomes_instruction, total_perm hperm, hperm.length_eq]
  · intro hzero
    rw [hrun, hlength, RegisterFile.raise_eq_self _ hzero]

/-- A column that wraps beside a score that is kept, under an immediate with bits past its low 16;
and immediates that cancel out, in two orders. -/
theorem combos_add_up_wrap :
    let f := (RegisterFile.zero.write ⟨8⟩ 0x7fffffff).write scoreRegister 5
    let s : Cpu Replay × Word := (⟨f, .zero 0 64, [], ⟨#[], 0⟩⟩, 4)
    let run (imms : List Word) := Instruction.outcomes .counter (imms.map instruction) s
    let zeroes : List Word := [0x7fff, 1, 0x8000]
    let zeroes' : List Word := [0x8000, 0x7fff, 1]
    (∃ g, run [0x7fff, 0x10001] = ([.ok (), .ok ()], ({ s.1 with registers := g }, 4)) ∧
      ⟨8⟩ ∈ columnRegisters.toList ∧ g.read ⟨8⟩ = 0x80007fff ∧
      scoreRegister ∉ columnRegisters.toList ∧ g.read scoreRegister = 5) ∧
    zeroes'.Perm zeroes ∧ run zeroes' = run zeroes ∧
      (2 ^ 32 : Int) ∣ total zeroes ∧ run zeroes = ([.ok (), .ok (), .ok ()], s) := by
  intro f s run zeroes zeroes'
  have hcolumn : (⟨8⟩ : Register) ∈ columnRegisters.toList := by decide
  have hscore : scoreRegister ∉ columnRegisters.toList := by decide
  have hperm : zeroes'.Perm zeroes := by decide
  have hzero : (2 ^ 32 : Int) ∣ total zeroes := by decide
  obtain ⟨⟨g, hg, hcolumns, hothers⟩, -⟩ := combos_add_up .counter s.1 s.2 [0x7fff, 0x10001]
  obtain ⟨-, horder, hnothing⟩ := combos_add_up .counter s.1 s.2 zeroes
  refine ⟨⟨g, hg, hcolumn, ?_, hscore, ?_⟩, hperm, horder zeroes' hperm, hzero, hnothing hzero⟩
  · rw [hcolumns _ hcolumn]
    decide
  · rw [hothers _ hscore]
    decide

end Combo

end TetrisMachine
