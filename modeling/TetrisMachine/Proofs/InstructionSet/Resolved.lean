import TetrisMachine.Proofs.InstructionSet.Operands
import TetrisMachine.Proofs.InstructionSet.RoundTrip

/-!
# Instructions that were decoded

A word that can be decoded stands for an operation: its operands are as many as they
should be, and the fields of registers name registers.

* `exists_operation_of_resolve`: the operation of a decoded instruction.
* `target_lt_of_resolve`: a decoded jump target has 26 bits.
-/

namespace TetrisMachine

open Catalog

variable {w : Word} {i : Instruction} {op : Operation}

/-- **A decoded instruction stands for an operation** of the mnemonic that the word
decodes to, read from operands that encode to the word. -/
theorem exists_operation_of_resolve (h : instructionSet.resolve w = .ok i) :
    ∃ op, i.operation = .ok op ∧ instructionSet.decode w = .ok op.mnemonic.descriptor ∧
      op.ReadFrom i.operands ∧ op.mnemonic.encode i.operands = .ok w := by
  obtain ⟨d, hd, rfl⟩ := resolve_eq_ok_iff.1 h
  have heq : d.mnemonic.descriptor = d := (matchesWord_of_decode hd).1
  have ht : d.mnemonic.template = d.template := congrArg Descriptor.template heq
  have henc := encode_of_decode hd
  rw [ht] at henc
  obtain ⟨op, hop⟩ := Mnemonic.exists_ofOperands_of_encode henc
  obtain ⟨hm, hread⟩ := Operation.ofOperands_eq_ok_iff.1 hop
  refine ⟨op, ?_, ?_, hread, ?_⟩
  · rw [← Mnemonic.operation_instruction, Mnemonic.instruction, heq] at hop
    exact hop
  · rw [hm, heq, hd]
  · rw [hm]
    exact henc

/-- The mnemonic of a decoded instruction is the one that the word decodes to. -/
theorem decode_of_resolve (h : instructionSet.resolve w = .ok i) (hop : i.operation = .ok op) :
    instructionSet.decode w = .ok op.mnemonic.descriptor := by
  obtain ⟨op', hop', hd, -, -⟩ := exists_operation_of_resolve h
  cases hop.symm.trans hop'
  exact hd

/-- A decoded jump target has 26 bits. -/
theorem target_lt_of_resolve {target : Word} (h : instructionSet.resolve w = .ok i)
    (hop : i.operation = .ok (.shift target)) : target.toNat < 0x4000000 := by
  obtain ⟨op', hop', -, hread, henc⟩ := exists_operation_of_resolve h
  cases hop.symm.trans hop'
  have hread : i.operands = [target] := hread
  obtain ⟨-, hrange⟩ := exists_encode_iff.1 ⟨w, henc⟩
  rw [hread] at hrange
  obtain ⟨hnonneg, hlt⟩ : 0 ≤ target.toInt ∧ target.toInt < 0x4000000 := hrange _ (.head _)
  have htoInt := toInt_eq_toNat_of_nonneg hnonneg
  omega

end TetrisMachine
