import TetrisMachine.Operation
import TetrisMachine.Proofs.InstructionSet.Templates

/-!
# Decoding and dispatch

* `decode_instructionSet`: a word matches at most one template of the instruction
  set, decoding finds that one, and the instruction it gives is executed as the
  mnemonic of that template.
-/

namespace TetrisMachine

open Catalog

/-- An instruction is executed as the mnemonic that its key leads to. -/
theorem operation_of_lookup {i : Instruction} {d : Descriptor}
    (h : instructionSet.lookup i.key = some d) :
    i.operation = Operation.ofOperands d.mnemonic i.operands := by
  rw [Instruction.operation, h]

/-- **Decoding finds exactly the template that matches.** At most one template
matches a word. Decoding gives its descriptor and refuses the word if there is
none, as trying every template does. The key of the instruction leads back to the
descriptor, so the instruction is executed as its mnemonic. -/
theorem decode_instructionSet (w : Word) :
    (instructionSet.matching w).length ≤ 1 ∧
    (∀ d, instructionSet.decode w = .ok d ↔ instructionSet.matching w = [d]) ∧
    (instructionSet.decode w = .error (.unknownEncoding w) ↔ instructionSet.matching w = []) ∧
    instructionSet.decode w = instructionSet.scan w ∧
    ∀ i, instructionSet.resolve w = .ok i ↔
      ∃ d, instructionSet.matching w = [d] ∧ i = ⟨d.key, d.template.extract w⟩ ∧
        instructionSet.lookup i.key = some d ∧
        i.operation = Operation.ofOperands d.mnemonic i.operands := by
  have hdecode (d : Descriptor) :
      instructionSet.decode w = .ok d ↔ instructionSet.matching w = [d] := by
    rw [decode_eq_ok_iff build_all instructionSet_keyed, matching_eq_singleton_iff build_all]
  refine ⟨length_matching_le_one build_all w, hdecode, ?_,
    decode_eq_scan build_all instructionSet_keyed w, fun i => ?_⟩
  · rw [decode_eq_error_iff build_all instructionSet_keyed, matching_eq_nil_iff]
    exact ⟨And.right, fun h => ⟨rfl, h⟩⟩
  · rw [resolve_eq_ok_iff]
    constructor
    · rintro ⟨d, hd, rfl⟩
      have hmem := ((matching_eq_singleton_iff build_all).1 ((hdecode d).1 hd)).1
      have hlook := lookup_key build_all hmem
      exact ⟨d, (hdecode d).1 hd, rfl, hlook, operation_of_lookup hlook⟩
    · rintro ⟨d, hd, hi, -, -⟩
      exact ⟨d, (hdecode d).2 hd, hi⟩

end TetrisMachine
