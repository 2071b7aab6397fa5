import TetrisMachine.InstructionSet
import TetrisMachine.Proofs.Decoding
import TetrisMachine.Proofs.Encoding.Layouts

/-!
# The templates of the instruction set

What the twenty templates have in common: they are read from layouts, so no bit
is given away twice and no bit is left open; a field has one of three widths, and
the catalog is keyed.

* `Mnemonic.template_wellFormed`, `Mnemonic.template_complete`: every template can
  be packed and leaves no bit open.
* `instructionSet_keyed`: the instruction set can be decoded by key.
-/

namespace TetrisMachine

namespace Mnemonic

/-- Registers have 5 bits, immediates 16 and jump targets 26. -/
theorem width_of_mem_fields {m : Mnemonic} {f : Field} (h : f ∈ m.template.fields) :
    f.width = 5 ∨ f.width = 16 ∨ f.width = 26 := by
  revert f
  cases m <;> decide

theorem template_partitioned (m : Mnemonic) : m.template.Partitioned :=
  Template.partitioned_of_ofLayout m.ofLayout_layout

theorem template_wellFormed (m : Mnemonic) : m.template.WellFormed := by
  refine m.template_partitioned.wellFormed fun f hf => ?_
  rcases width_of_mem_fields hf with hw | hw | hw <;> omega

theorem template_complete (m : Mnemonic) : m.template.Complete :=
  m.template_partitioned.complete

end Mnemonic

/-- **The instruction set is keyed.** -/
theorem instructionSet_keyed : instructionSet.Keyed where
  opcode := by
    rw [instructionSet, Catalog.descriptors_ofDescriptors, List.forall_mem_map]
    decide +kernel
  function := by
    rw [instructionSet, Catalog.descriptors_ofDescriptors]
    simp only [List.forall_mem_map]
    decide +kernel

end TetrisMachine
