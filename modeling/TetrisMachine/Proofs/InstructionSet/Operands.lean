import Mathlib.Data.List.Basic
import TetrisMachine.Proofs.InstructionSet.Dispatch

/-!
# Reading the operands

An operation is read from operands in the order of its arguments, registers from
the words that name them. The third operand of `rotate` is not read.

* `Operation.ofOperands_eq_ok_iff`: the operands that an operation is read from.
* `Instruction.Denotes`: the operation of an instruction, by its key and its operands.
* `Instruction.operation_eq_ok_iff`: an instruction stands for the operation that it denotes.
* `Mnemonic.operation_instruction`: an instruction that is built from a mnemonic and
  operands is read as that mnemonic.
-/

namespace TetrisMachine

open Catalog

namespace Operation

/-- The mnemonic of an operation. -/
def mnemonic : Operation → Mnemonic
  | harddrop .. => .harddrop
  | attack .. => .attack
  | delay .. => .delay
  | stack .. => .stack
  | garbage .. => .garbage
  | hold .. => .hold
  | next .. => .next
  | shift _ => .shift
  | lineclear .. => .lineclear
  | nonclear .. => .nonclear
  | downstack => .downstack
  | topout => .topout
  | allclear => .allclear
  | viewboard => .viewboard
  | tetris => .tetris
  | ghostpiece .. => .ghostpiece
  | drop _ => .drop
  | rotate .. => .rotate
  | slowgravity .. => .slowgravity
  | combo _ => .combo

/-- The operands that an operation is read from. -/
def ReadFrom (operands : List Word) : Operation → Prop
  | harddrop d s imm | ghostpiece d s imm | slowgravity d s imm =>
    operands = [d.toWord, s.toWord, imm]
  | attack d a b | stack d a b | garbage d a b => operands = [d.toWord, a.toWord, b.toWord]
  | delay a b => operands = [a.toWord, b.toWord]
  | hold v offset base | next v offset base => operands = [v.toWord, offset, base.toWord]
  | shift target => operands = [target]
  | lineclear a b offset | nonclear a b offset => operands = [a.toWord, b.toWord, offset]
  | downstack | topout | allclear | viewboard | tetris => operands = []
  | drop d => operands = [d.toWord]
  | rotate a b => ∃ unused, operands = [a.toWord, b.toWord, unused]
  | combo imm => operands = [imm]

theorem length_of_readFrom {operands : List Word} {op : Operation} (h : op.ReadFrom operands) :
    operands.length = op.mnemonic.operandCount := by
  cases op
  case rotate =>
    obtain ⟨_, rfl⟩ := h
    rfl
  all_goals
    cases h
    rfl

theorem readFrom_of_ofOperands {m : Mnemonic} {operands : List Word} {op : Operation}
    (h : ofOperands m operands = .ok op) : op.mnemonic = m ∧ op.ReadFrom operands := by
  unfold ofOperands at h
  split at h
  · cases h
  rename_i hl
  -- by the kinds of the operands: the count gives the list, each register its word
  rw [not_not] at hl
  cases m
  all_goals simp only [assemble, bind_eq_ok, registerOperand_eq_ok_iff, pure, Except.pure] at h
  case drop =>
    obtain ⟨x, rfl⟩ := List.length_eq_one_iff.1 hl
    simp only [List.getD_cons_zero] at h
    obtain ⟨d, rfl, ⟨⟩⟩ := h
    exact ⟨rfl, rfl⟩
  case delay =>
    obtain ⟨x, y, rfl⟩ := List.length_eq_two.1 hl
    simp only [List.getD_cons_zero, List.getD_cons_succ] at h
    obtain ⟨a, rfl, b, rfl, ⟨⟩⟩ := h
    exact ⟨rfl, rfl⟩
  case attack | stack | garbage =>
    obtain ⟨x, y, z, rfl⟩ := List.length_eq_three.1 hl
    simp only [List.getD_cons_zero, List.getD_cons_succ] at h
    obtain ⟨d, rfl, a, rfl, b, rfl, ⟨⟩⟩ := h
    exact ⟨rfl, rfl⟩
  case harddrop | hold | next | lineclear | nonclear | ghostpiece | slowgravity =>
    obtain ⟨x, y, z, rfl⟩ := List.length_eq_three.1 hl
    simp only [List.getD_cons_zero, List.getD_cons_succ] at h
    obtain ⟨a, rfl, b, rfl, ⟨⟩⟩ := h
    exact ⟨rfl, rfl⟩
  case rotate =>
    obtain ⟨x, y, z, rfl⟩ := List.length_eq_three.1 hl
    simp only [List.getD_cons_zero, List.getD_cons_succ] at h
    obtain ⟨a, rfl, b, rfl, ⟨⟩⟩ := h
    exact ⟨rfl, z, rfl⟩
  case shift | combo =>
    obtain ⟨x, rfl⟩ := List.length_eq_one_iff.1 hl
    cases h
    exact ⟨rfl, rfl⟩
  case downstack | topout | allclear | viewboard | tetris =>
    cases List.length_eq_zero_iff.1 hl
    cases h
    exact ⟨rfl, rfl⟩

theorem ofOperands_of_readFrom {operands : List Word} {op : Operation}
    (h : op.ReadFrom operands) : ofOperands op.mnemonic operands = .ok op := by
  have hl := length_of_readFrom h
  rw [ofOperands, if_neg (not_not_intro hl)]
  unfold assemble
  cases op
  case rotate =>
    obtain ⟨_, rfl⟩ := h
    simp [mnemonic, bind, Except.bind, pure, Except.pure]
  all_goals
    cases h
    simp [mnemonic, bind, Except.bind, pure, Except.pure]

/-- **The operands that an operation is read from.** -/
theorem ofOperands_eq_ok_iff {m : Mnemonic} {operands : List Word} {op : Operation} :
    ofOperands m operands = .ok op ↔ op.mnemonic = m ∧ op.ReadFrom operands := by
  constructor
  · exact readFrom_of_ofOperands
  · rintro ⟨rfl, h⟩
    exact ofOperands_of_readFrom h

end Operation

namespace Instruction

variable {i : Instruction} {m : Mnemonic} {op : Operation}

/-- The operation of an instruction, by its key and its operands. -/
def Denotes (i : Instruction) (op : Operation) : Prop :=
  op.mnemonic.descriptor.key = i.key ∧ op.ReadFrom i.operands

theorem operation_of_key (h : m.descriptor.key = i.key) :
    i.operation = Operation.ofOperands m i.operands := by
  have hlookup := lookup_key build_all m.descriptor_mem
  rw [h] at hlookup
  exact operation_of_lookup hlookup

theorem operation_of_unknown (h : ∀ m : Mnemonic, m.descriptor.key ≠ i.key) :
    i.operation = .error (.unknownInstruction i.key) := by
  rw [operation]
  cases hlookup : instructionSet.lookup i.key with
  | none => rfl
  | some d =>
    obtain ⟨hmem, hkey⟩ := mem_of_lookup build_all hlookup
    rw [← mem_descriptors_iff.1 hmem] at hkey
    exact absurd hkey (h d.mnemonic)

/-- **An instruction stands for the operation that it denotes.** -/
theorem operation_eq_ok_iff : i.operation = .ok op ↔ i.Denotes op := by
  constructor
  · intro h
    by_cases hkey : ∃ m : Mnemonic, m.descriptor.key = i.key
    · obtain ⟨m, hm⟩ := hkey
      rw [operation_of_key hm] at h
      obtain ⟨rfl, hread⟩ := Operation.ofOperands_eq_ok_iff.1 h
      exact ⟨hm, hread⟩
    · rw [operation_of_unknown (not_exists.1 hkey)] at h
      cases h
  · rintro ⟨hkey, hread⟩
    rw [operation_of_key hkey]
    exact Operation.ofOperands_of_readFrom hread

/-- No instruction denotes two operations. -/
theorem Denotes.unique {op' : Operation} (h : i.Denotes op) (h' : i.Denotes op') : op = op' := by
  have heq := (operation_eq_ok_iff.2 h).symm.trans (operation_eq_ok_iff.2 h')
  cases heq
  rfl

end Instruction

theorem Mnemonic.operation_instruction (m : Mnemonic) (operands : List Word) :
    (m.instruction operands).operation = Operation.ofOperands m operands :=
  Instruction.operation_of_key rfl

/-- The operation of an instruction that is built from the operands of an operation. -/
theorem Operation.operation_instruction (op : Operation) {operands : List Word}
    (h : op.ReadFrom operands) : (op.mnemonic.instruction operands).operation = .ok op := by
  rw [Mnemonic.operation_instruction]
  exact ofOperands_of_readFrom h

/-- A field of 5 bits holds the words of registers only. -/
theorem Field.exists_eq_toWord {f : Field} {v : Word} (hf : f.width = 5) (h : f.Fits v) :
    ∃ r : Register, v = r.toWord := by
  rw [Fits, hf, if_neg (by decide)] at h
  have hlt : v.toNat < 34 := Nat.lt_of_lt_of_le h.2 (by decide)
  refine ⟨⟨v.toNat, hlt⟩, BitVec.eq_of_toNat_eq ?_⟩
  rw [Register.toNat_toWord]

/-- **Operands that can be encoded can be read.** -/
theorem Mnemonic.exists_ofOperands_of_encode {m : Mnemonic} {operands : List Word} {w : Word}
    (h : m.encode operands = .ok w) : ∃ op, Operation.ofOperands m operands = .ok op := by
  obtain ⟨hl, hfits, -⟩ := Template.encode_eq_ok_iff.1 h
  have hl' : operands.length = m.operandCount := hl
  rw [Operation.ofOperands, if_neg (not_not_intro hl')]
  unfold Operation.assemble
  -- only the operands in fields of 5 bits are read as registers
  cases m
  case drop =>
    obtain ⟨x, rfl⟩ := List.length_eq_one_iff.1 hl
    obtain ⟨d, rfl⟩ := Field.exists_eq_toWord rfl (hfits _ (.head _))
    simp [bind, Except.bind, pure, Except.pure]
  case delay =>
    obtain ⟨x, y, rfl⟩ := List.length_eq_two.1 hl
    obtain ⟨a, rfl⟩ := Field.exists_eq_toWord rfl (hfits _ (.head _))
    obtain ⟨b, rfl⟩ := Field.exists_eq_toWord rfl (hfits _ (.tail _ (.head _)))
    simp [bind, Except.bind, pure, Except.pure]
  case attack | stack | garbage =>
    obtain ⟨x, y, z, rfl⟩ := List.length_eq_three.1 hl
    obtain ⟨d, rfl⟩ := Field.exists_eq_toWord rfl (hfits _ (.head _))
    obtain ⟨a, rfl⟩ := Field.exists_eq_toWord rfl (hfits _ (.tail _ (.head _)))
    obtain ⟨b, rfl⟩ := Field.exists_eq_toWord rfl (hfits _ (.tail _ (.tail _ (.head _))))
    simp [bind, Except.bind, pure, Except.pure]
  case hold | next =>
    obtain ⟨x, y, z, rfl⟩ := List.length_eq_three.1 hl
    obtain ⟨v, rfl⟩ := Field.exists_eq_toWord rfl (hfits _ (.head _))
    obtain ⟨base, rfl⟩ := Field.exists_eq_toWord rfl (hfits _ (.tail _ (.tail _ (.head _))))
    simp [bind, Except.bind, pure, Except.pure]
  case harddrop | lineclear | nonclear | ghostpiece | slowgravity | rotate =>
    obtain ⟨x, y, z, rfl⟩ := List.length_eq_three.1 hl
    obtain ⟨a, rfl⟩ := Field.exists_eq_toWord rfl (hfits _ (.head _))
    obtain ⟨b, rfl⟩ := Field.exists_eq_toWord rfl (hfits _ (.tail _ (.head _)))
    simp [bind, Except.bind, pure, Except.pure]
  case shift | combo | downstack | topout | allclear | viewboard | tetris => exact ⟨_, rfl⟩

end TetrisMachine
