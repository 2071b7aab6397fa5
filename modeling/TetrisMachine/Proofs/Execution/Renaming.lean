import Mathlib.Logic.Equiv.Basic
import TetrisMachine.Proofs.Board.Registers
import TetrisMachine.Proofs.Execution.Decoded
import TetrisMachine.Proofs.Execution.Sequence
import TetrisMachine.Random.Replay

/-!
# Renaming registers

A permutation of the registers keeps their roles if it maps the columns of the board to
columns and leaves the score, `hi` and `lo` where they are. Instructions cannot tell any
other registers apart, except for those that print a register's name or the columns in
order: with every register operand renamed they do to the renamed registers what they did.

* `Operation.rename`, `Instruction.rename`: the register operands are renamed.
* `Instruction.operation_rename`: a renamed instruction stands for the renamed operation.
* `Cpu.Renamed`: one state is another with its registers renamed.
* `Operation.renamed_update`: an operation keeps this.
* `Instruction.outcomes_renamed`: so do instructions in sequence.
-/

namespace TetrisMachine

variable {p : Equiv.Perm Register}

/-- The permutation keeps the roles of the registers. -/
structure KeepsRoles (p : Equiv.Perm Register) : Prop where
  column : ∀ r, p r ∈ Board.columnRegisters.toList ↔ r ∈ Board.columnRegisters.toList
  score : p Board.scoreRegister = Board.scoreRegister
  hi : p .hi = .hi
  lo : p .lo = .lo

/-! ### Renamed instructions -/

/-- The operation with its registers renamed. -/
def Operation.rename (p : Equiv.Perm Register) : Operation → Operation
  | harddrop d s imm => harddrop (p d) (p s) imm
  | attack d a b => attack (p d) (p a) (p b)
  | delay a b => delay (p a) (p b)
  | stack d a b => stack (p d) (p a) (p b)
  | garbage d a b => garbage (p d) (p a) (p b)
  | hold v offset base => hold (p v) offset (p base)
  | next d offset base => next (p d) offset (p base)
  | shift target => shift target
  | lineclear a b offset => lineclear (p a) (p b) offset
  | nonclear a b offset => nonclear (p a) (p b) offset
  | downstack => downstack
  | topout => topout
  | allclear => allclear
  | viewboard => viewboard
  | tetris => tetris
  | ghostpiece d s imm => ghostpiece (p d) (p s) imm
  | drop d => drop (p d)
  | rotate a b => rotate (p a) (p b)
  | slowgravity d s imm => slowgravity (p d) (p s) imm
  | combo imm => combo imm

/-- The word that names the renamed register. A word that names none is left alone. -/
def renameWord (p : Equiv.Perm Register) (w : Word) : Word :=
  match Register.ofWord? w with
  | some r => (p r).toWord
  | none => w

namespace Mnemonic

/-- Whether an operand names a register: those in fields of 5 bits do. -/
def namesRegister (m : Mnemonic) (k : Nat) : Bool :=
  m.template.fields.any fun f => f.operand == k && f.width == 5

/-- An operand with its register renamed, if it names one. -/
def renameOperand (m : Mnemonic) (p : Equiv.Perm Register) (k : Nat) (w : Word) : Word :=
  if m.namesRegister k then renameWord p w else w

end Mnemonic

namespace Instruction

/-- The mnemonic of an instruction, if its key is known. -/
def mnemonic? (i : Instruction) : Option Mnemonic :=
  (instructionSet.lookup i.key).map (·.mnemonic)

/-- The instruction with its register operands renamed. -/
def rename (p : Equiv.Perm Register) (i : Instruction) : Instruction :=
  match i.mnemonic? with
  | some m => { i with operands := i.operands.mapIdx (m.renameOperand p) }
  | none => i

end Instruction

section

variable {m : Mnemonic} {k : Nat}

theorem Mnemonic.renameOperand_eq_self (h : m.namesRegister k = false) (w : Word) :
    m.renameOperand p k w = w := by
  rw [renameOperand, h]
  rfl

theorem registerOperand_renameOperand (h : m.namesRegister k = true) (w : Word) :
    registerOperand (m.renameOperand p k w) = (registerOperand w).map p := by
  rw [Mnemonic.renameOperand, if_pos h, renameWord]
  cases hw : Register.ofWord? w with
  | none =>
    dsimp only
    rw [registerOperand, hw]
    rfl
  | some r =>
    dsimp only
    rw [registerOperand_toWord, registerOperand, hw]
    rfl

end

namespace Operation

theorem assemble_rename (m : Mnemonic) (word : Nat → Word) :
    assemble m (fun k => m.renameOperand p k (word k)) = (assemble m word).map (rename p) := by
  -- by the operands that name registers, each of which is one or is not
  cases m with
  | downstack | topout | allclear | viewboard | tetris | shift | combo => rfl
  | drop =>
    simp (disch := decide) only [assemble, registerOperand_renameOperand]
    cases registerOperand (word 0) <;> rfl
  | harddrop | ghostpiece | slowgravity | delay | lineclear | nonclear | rotate =>
    simp (disch := decide) only [assemble, registerOperand_renameOperand,
      Mnemonic.renameOperand_eq_self]
    cases registerOperand (word 0) <;> cases registerOperand (word 1) <;> rfl
  | hold | next =>
    simp (disch := decide) only [assemble, registerOperand_renameOperand,
      Mnemonic.renameOperand_eq_self]
    cases registerOperand (word 0) <;> cases registerOperand (word 2) <;> rfl
  | attack | stack | garbage =>
    simp (disch := decide) only [assemble, registerOperand_renameOperand]
    cases registerOperand (word 0) <;> cases registerOperand (word 1) <;>
      cases registerOperand (word 2) <;> rfl

/-- Renaming the operands renames the operation. Operands that name no register are refused
as they were. -/
theorem ofOperands_rename (m : Mnemonic) (operands : List Word) :
    ofOperands m (operands.mapIdx (m.renameOperand p)) =
      (ofOperands m operands).map (rename p) := by
  unfold ofOperands
  rw [List.length_mapIdx]
  by_cases hl : operands.length = m.operandCount
  · rw [if_neg (not_not_intro hl), if_neg (not_not_intro hl), ← assemble_rename]
    refine assemble_congr fun k hk => ?_
    rw [← hl] at hk
    simp only [List.getD_eq_getElem?_getD, List.getElem?_mapIdx, List.getElem?_eq_getElem hk,
      Option.map_some, Option.getD_some]
  · rw [if_pos hl, if_pos hl]
    rfl

end Operation

namespace Instruction

theorem operation_of_mnemonic? {i : Instruction} {m : Mnemonic} (h : i.mnemonic? = some m) :
    i.operation = Operation.ofOperands m i.operands := by
  obtain ⟨d, hd, rfl⟩ := Option.map_eq_some_iff.1 h
  rw [operation, hd]

/-- **A renamed instruction stands for the renamed operation**, and is refused as it was if it
stands for none. -/
theorem operation_rename (i : Instruction) :
    (i.rename p).operation = i.operation.map (Operation.rename p) := by
  cases hm : i.mnemonic? with
  | none =>
    have hi : i.rename p = i := by rw [rename, hm]
    have hlookup : instructionSet.lookup i.key = none := Option.map_eq_none_iff.1 hm
    rw [hi, operation, hlookup]
    rfl
  | some m =>
    have hi : i.rename p = { i with operands := i.operands.mapIdx (m.renameOperand p) } := by
      rw [rename, hm]
    have hm' : (i.rename p).mnemonic? = some m := by rw [hi]; exact hm
    rw [operation_of_mnemonic? hm', operation_of_mnemonic? hm, hi]
    exact Operation.ofOperands_rename m i.operands

theorem mnemonic?_of_operation {i : Instruction} {op : Operation} (h : i.operation = .ok op) :
    i.mnemonic? = some op.mnemonic := by
  unfold operation at h
  cases hd : instructionSet.lookup i.key with
  | none =>
    rw [hd] at h
    cases h
  | some d =>
    rw [hd] at h
    obtain ⟨hm, -⟩ := Operation.ofOperands_eq_ok_iff.1 h
    rw [mnemonic?, hd, hm]
    rfl

end Instruction

/-! ### Renamed states -/

/-- The second state is the first with its registers renamed: each register has moved, with
what it holds, to where it is renamed to. -/
structure Cpu.Renamed {G : Type} (p : Equiv.Perm Register) (c c' : Cpu G) : Prop where
  registers : ∀ r, c'.registers.read (p r) = c.registers.read r
  memory : c'.memory = c.memory
  output : c'.output = c.output
  random : c'.random = c.random

theorem RegisterFile.read_write_rename {f f' : RegisterFile} {r : Register}
    (h : f'.read (p r) = f.read r) (d : Register) (w : Word) :
    (f'.write (p d) w).read (p r) = (f.write d w).read r := by
  simp only [read_write, p.apply_eq_iff_eq, h]

namespace KeepsRoles

variable {f f' : RegisterFile} (hp : KeepsRoles p)
include hp

theorem eq_score_iff {r : Register} : p r = Board.scoreRegister ↔ r = Board.scoreRegister := by
  rw [← hp.score, p.apply_eq_iff_eq, hp.score]

/-- What is asked of every column is asked of the renamed registers too. -/
theorem forall_columns (h : ∀ r, f'.read (p r) = f.read r) (P : Word → Prop) :
    (∀ r ∈ Board.columnRegisters.toList, P (f'.read r)) ↔
      ∀ r ∈ Board.columnRegisters.toList, P (f.read r) := by
  constructor
  · intro hf r hr
    rw [← h]
    exact hf (p r) ((hp.column r).2 hr)
  · intro hf r hr
    obtain ⟨r, rfl⟩ := p.surjective r
    rw [h]
    exact hf r ((hp.column r).1 hr)

theorem holds_iff (h : ∀ r, f'.read (p r) = f.read r) (rows : Nat) :
    (Board.ofRegisters f').Holds rows ↔ (Board.ofRegisters f).Holds rows := by
  rw [Board.holds_iff, Board.holds_iff]
  exact hp.forall_columns h fun w => (rows : Int) ≤ w.toInt

theorem clear_iff (h : ∀ r, f'.read (p r) = f.read r) :
    (Board.ofRegisters f').Clear ↔ (Board.ofRegisters f).Clear := by
  rw [Board.clear_iff, Board.clear_iff]
  exact hp.forall_columns h fun w => w = 0

theorem toppedOut_iff (h : ∀ r, f'.read (p r) = f.read r) :
    (Board.ofRegisters f').ToppedOut ↔ (Board.ofRegisters f).ToppedOut := by
  have hnone := hp.forall_columns h fun w => ¬ Board.top ≤ w.toInt
  rw [Board.toppedOut_iff, Board.toppedOut_iff]
  simpa using Decidable.not_iff_not.2 hnone

theorem score_eq (h : ∀ r, f'.read (p r) = f.read r) :
    (Board.ofRegisters f').score = (Board.ofRegisters f).score := by
  have hs := h Board.scoreRegister
  rw [hp.score] at hs
  exact hs

/-- A rule that changes every column alike does so in the renamed registers. -/
theorem read_place_map (h : ∀ r, f'.read (p r) = f.read r) (column score : Word → Word)
    (r : Register) :
    (((Board.ofRegisters f').map column score).place f').read (p r) =
      (((Board.ofRegisters f).map column score).place f).read r := by
  simp only [Board.read_place_map, hp.eq_score_iff, hp.column, h]

/-- A rule that changes every column alike, if it applies. -/
theorem read_rule (h : ∀ r, f'.read (p r) = f.read r) {applies applies' : Prop}
    [Decidable applies] [Decidable applies'] (happlies : applies' ↔ applies)
    (column score : Word → Word) (r : Register) :
    (if applies' then ((Board.ofRegisters f').map column score).place f' else f').read (p r) =
      (if applies then ((Board.ofRegisters f).map column score).place f else f).read r := by
  by_cases ha : applies
  · rw [if_pos ha, if_pos (happlies.2 ha)]
    exact hp.read_place_map h column score r
  · rw [if_neg ha, if_neg (mt happlies.1 ha)]
    exact h r

theorem read_write_hi {r : Register} (h : f'.read (p r) = f.read r) (w : Word) :
    (f'.write .hi w).read (p r) = (f.write .hi w).read r := by
  have hw := RegisterFile.read_write_rename h .hi w
  rw [hp.hi] at hw
  exact hw

theorem read_write_lo {r : Register} (h : f'.read (p r) = f.read r) (w : Word) :
    (f'.write .lo w).read (p r) = (f.write .lo w).read r := by
  have hw := RegisterFile.read_write_rename h .lo w
  rw [hp.lo] at hw
  exact hw

end KeepsRoles

namespace Cpu.Renamed

variable {G : Type} {c c' : Cpu G} (h : Renamed p c c')
include h

theorem address_eq (offset : Word) (base : Register) :
    c'.address offset (p base) = c.address offset base := by
  rw [Cpu.address, Cpu.address, h.registers]

end Cpu.Renamed

namespace Operation

variable {G : Type} {c c' : Cpu G} {op : Operation} (h : Cpu.Renamed p c c')
include h

theorem memory_rename : (op.rename p).memory c' = op.memory c := by
  cases op with
  | hold v offset base => simp only [rename, memory, h.address_eq, h.registers, h.memory]
  | _ => exact h.memory

theorem transfer_rename (pc : Word) : (op.rename p).transfer c' pc = op.transfer c pc := by
  cases op with
  | lineclear a b offset | nonclear a b offset => simp only [rename, transfer, h.registers]
  | _ => rfl

theorem text?_rename (hp : KeepsRoles p) (hghost : op.mnemonic ≠ .ghostpiece)
    (hview : op.mnemonic ≠ .viewboard) : (op.rename p).text? c' = op.text? c := by
  have hr := h.registers
  cases op with
  | ghostpiece => exact absurd rfl hghost
  | viewboard => exact absurd rfl hview
  | topout =>
    simp only [rename, text?, Cpu.board, hp.score_eq hr]
    exact if_congr (hp.toppedOut_iff hr) rfl rfl
  | allclear => exact if_congr (hp.clear_iff hr) rfl rfl
  | tetris => exact if_congr (hp.holds_iff hr 4) rfl rfl
  | _ => rfl

variable [RandomSource G]

theorem fault?_rename : (op.rename p).fault? c' = op.fault? c := by
  cases op with
  | harddrop | stack | garbage => simp only [rename, fault?, h.registers]
  | hold | next => simp only [rename, fault?, h.address_eq, h.memory]
  | drop => simp only [rename, fault?, h.random]
  | _ => rfl

theorem random_rename : (op.rename p).random c' = op.random c := by
  cases op with
  | drop => simp only [rename, random, h.random]
  | _ => exact h.random

open RegisterFile in
/-- **The renamed operation leaves in the renamed register what the operation leaves in the
register.** -/
theorem read_registers_rename (hp : KeepsRoles p) (r : Register) :
    ((op.rename p).registers c').read (p r) = (op.registers c).read r := by
  have hr := h.registers
  cases op with
  | harddrop d | ghostpiece d | slowgravity d | stack d | garbage d =>
    simp only [rename, registers, hr]
    exact read_write_rename (hr r) d _
  | next d =>
    simp only [rename, registers, h.address_eq, h.memory]
    exact read_write_rename (hr r) d _
  | attack d a b =>
    simp only [rename, registers, hr]
    exact hp.read_write_lo (hp.read_write_hi (read_write_rename (hr r) d _) _) _
  | delay a b =>
    simp only [rename, registers, hr]
    split
    · exact hp.read_write_lo (hp.read_write_hi (hr r) _) _
    · exact hr r
  | drop d =>
    simp only [rename, registers, h.random, hr]
    split
    · exact read_write_rename (hr r) d _
    · exact hr r
  | rotate a b =>
    simp only [rename, registers, hr]
    exact read_write_rename (read_write_rename (hr r) a _) b _
  | downstack =>
    simp only [rename, registers, Board.lower_eq_map]
    exact hp.read_rule hr (hp.holds_iff hr 1) _ _ r
  | tetris =>
    simp only [rename, registers, Board.lower_eq_map]
    exact hp.read_rule hr (hp.holds_iff hr 4) _ _ r
  | topout =>
    have hempty (x : Cpu G) : topout.registers x =
        if x.board.ToppedOut then (x.board.map (fun _ => 0) fun _ => 0).place x.registers
        else x.registers := by
      rw [registers, ← Board.empty_eq_map]
    rw [rename, hempty, hempty]
    exact hp.read_rule hr (hp.toppedOut_iff hr) _ _ r
  | allclear =>
    simp only [rename, registers, Board.double_eq_map]
    exact hp.read_rule hr (hp.clear_iff hr) _ _ r
  | combo imm =>
    simp only [rename, registers, Cpu.board, Board.raise_eq_map]
    exact hp.read_place_map hr _ _ r
  | hold | lineclear | nonclear | viewboard | shift => exact hr r

/-- **An operation keeps states renamed.** -/
theorem renamed_update (hp : KeepsRoles p) (hghost : op.mnemonic ≠ .ghostpiece)
    (hview : op.mnemonic ≠ .viewboard) : Cpu.Renamed p (op.update c) ((op.rename p).update c') where
  registers := read_registers_rename h hp
  memory := memory_rename h
  output := by
    simp only [update, text?_rename h hp hghost hview, h.output]
  random := random_rename h

end Operation

namespace Instruction

variable {G D : Type} [RandomSource G]

/-- An instruction gives the same answer in the renamed state, leaves the delegate alike, and
keeps the states renamed. -/
theorem outcome_renamed (hp : KeepsRoles p) {i : Instruction}
    (hghost : i.mnemonic? ≠ some .ghostpiece) (hview : i.mnemonic? ≠ some .viewboard)
    (δ : Delegate D) {s s' : Cpu G × D} (h : Cpu.Renamed p s.1 s'.1) (hd : s'.2 = s.2) :
    ((i.rename p).outcome δ s').1 = (i.outcome δ s).1 ∧
      Cpu.Renamed p (i.outcome δ s).2.1 ((i.rename p).outcome δ s').2.1 ∧
      ((i.rename p).outcome δ s').2.2 = (i.outcome δ s).2.2 := by
  obtain ⟨c, d⟩ := s
  obtain ⟨c', d'⟩ := s'
  cases hd
  have hrename := operation_rename (p := p) i
  cases hop : i.operation with
  | error fault =>
    rw [hop] at hrename
    rw [outcome_of_refused hop, outcome_of_refused hrename]
    exact ⟨rfl, h, rfl⟩
  | ok op =>
    rw [hop] at hrename
    have hm : i.mnemonic? = some op.mnemonic := mnemonic?_of_operation hop
    have hfault : (op.rename p).fault? c' = op.fault? c := Operation.fault?_rename h
    cases hf : op.fault? c with
    | some fault =>
      rw [hf] at hfault
      rw [outcome_of_fault hop hf, outcome_of_fault hrename hfault]
      exact ⟨rfl, h, rfl⟩
    | none =>
      rw [hf] at hfault
      rw [outcome_of_no_fault hop hf, outcome_of_no_fault hrename hfault]
      refine ⟨rfl, Operation.renamed_update h hp ?_ ?_, ?_⟩
      · exact fun hne => hghost (hm.trans (congrArg some hne))
      · exact fun hne => hview (hm.trans (congrArg some hne))
      · dsimp only
        rw [Operation.transfer_rename h]

/-- **Registers are interchangeable except for their roles.** Instructions with every register
operand renamed, executed in sequence from the renamed state, give the answers that they gave,
call the delegate as they did, and leave the renamed state: the same memory, output and random
source, and in each renamed register what the register held. The instructions that print a
register's name or the columns in order are left out. -/
theorem outcomes_renamed {p : Equiv.Perm Register} (hp : KeepsRoles p) (δ : Delegate D)
    (is : List Instruction)
    (his : ∀ i ∈ is, i.mnemonic? ≠ some .ghostpiece ∧ i.mnemonic? ≠ some .viewboard)
    (s s' : Cpu G × D) (h : Cpu.Renamed p s.1 s'.1) (hd : s'.2 = s.2) :
    (outcomes δ (is.map (rename p)) s').1 = (outcomes δ is s).1 ∧
      Cpu.Renamed p (outcomes δ is s).2.1 (outcomes δ (is.map (rename p)) s').2.1 ∧
      (outcomes δ (is.map (rename p)) s').2.2 = (outcomes δ is s).2.2 := by
  induction is generalizing s s' with
  | nil => exact ⟨rfl, h, hd⟩
  | cons i is ih =>
    obtain ⟨⟨hghost, hview⟩, his⟩ := List.forall_mem_cons.1 his
    obtain ⟨hanswer, hstate, hdelegate⟩ := outcome_renamed hp hghost hview δ h hd
    obtain ⟨hanswers, hstates, hdelegates⟩ := ih his _ _ hstate hdelegate
    exact ⟨congrArg₂ List.cons hanswer hanswers, hstates, hdelegates⟩

/-- The columns `$t0` and `$t8` and the registers `$a0` and `$a1` change places, between a
failing sum, a rule of the board and a store. -/
theorem outcomes_renamed_swap :
    let p := (Equiv.swap (⟨8⟩ : Register) ⟨24⟩).trans (Equiv.swap ⟨4⟩ ⟨5⟩)
    let is := [Mnemonic.stack.instruction [8, 4, 4], Mnemonic.combo.instruction [0xffff],
      Mnemonic.attack.instruction [4, 8, 5], Mnemonic.hold.instruction [8, 8, 29]]
    let f (r r' : Register) :=
      ((RegisterFile.zero.write r 0x7fffffff).write r' 3).write ⟨29⟩ 0x10010000
    let s (f : RegisterFile) : Cpu Replay × Word := (⟨f, .zero 0x10010000 64, [], ⟨#[], 0⟩⟩, 4)
    KeepsRoles p ∧
      (outcomes .counter is (s (f ⟨4⟩ ⟨8⟩))).1 =
        [.error .arithmeticOverflow, .ok (), .ok (), .ok ()] ∧
      is.map (rename p) =
        [Mnemonic.stack.instruction [24, 5, 5], Mnemonic.combo.instruction [0xffff],
          Mnemonic.attack.instruction [5, 24, 4], Mnemonic.hold.instruction [24, 8, 29]] ∧
      Cpu.Renamed p (outcomes .counter is (s (f ⟨4⟩ ⟨8⟩))).2.1
        (outcomes .counter (is.map (rename p)) (s (f ⟨5⟩ ⟨24⟩))).2.1 := by
  intro p is f s
  have hp : KeepsRoles p := by
    refine ⟨?_, by decide, by decide, by decide⟩
    rintro ⟨k⟩
    revert k
    decide
  have hrenamed : Cpu.Renamed p (s (f ⟨4⟩ ⟨8⟩)).1 (s (f ⟨5⟩ ⟨24⟩)).1 := by
    refine ⟨?_, rfl, rfl, rfl⟩
    rintro ⟨k⟩
    revert k
    decide
  have his : ∀ i ∈ is, i.mnemonic? ≠ some .ghostpiece ∧ i.mnemonic? ≠ some .viewboard := by
    decide +kernel
  obtain ⟨-, hstate, -⟩ := outcomes_renamed hp .counter is his _ _ hrenamed rfl
  exact ⟨hp, by decide +kernel, by decide +kernel, hstate⟩

end Instruction

end TetrisMachine
