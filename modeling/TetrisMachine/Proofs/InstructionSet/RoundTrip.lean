import TetrisMachine.Operation
import TetrisMachine.Proofs.Encoding.Lossless
import TetrisMachine.Proofs.InstructionSet.Templates

/-!
# Encoding and decoding are inverse

The operands of an instruction are registers of 5 bits, immediates of 16 and jump
targets of 26. An immediate may be written as a signed or as an unsigned number of
16 bits; decoding gives the signed one.

* `decode_of_encode`, `resolve_of_encode`: what an encoded word decodes to.
* `encode_of_decode`: what a decoded word encodes from.
* `Mnemonic.encode_inverse`: encoding and decoding are inverse.
-/

namespace TetrisMachine

open Catalog

/-- The numbers that fit a field of an instruction. -/
def Field.InRange (f : Field) (v : Word) : Prop :=
  match f.width with
  | 5 => 0 ≤ v.toInt ∧ v.toInt ≤ 31
  | 16 => -32768 ≤ v.toInt ∧ v.toInt ≤ 65535
  | 26 => 0 ≤ v.toInt ∧ v.toInt < 0x4000000
  | _ => False

theorem Field.fits_iff_inRange {m : Mnemonic} {f : Field} (h : f ∈ m.template.fields) (v : Word) :
    f.Fits v ↔ f.InRange v := by
  rw [fits_iff_takes]
  unfold Takes InRange
  rcases Mnemonic.width_of_mem_fields h with hw | hw | hw
  · rw [hw, if_neg (by decide)]
    simp only
    omega
  · rw [hw, if_pos rfl]
    exact Iff.rfl
  · rw [hw, if_neg (by decide)]
    simp only
    omega

variable {m : Mnemonic} {operands : List Word} {w : Word}

/-- **The operands that can be encoded** are as many as the mnemonic has fields, and
each is in the range of its field. -/
theorem exists_encode_iff : (∃ w, m.encode operands = .ok w) ↔
    operands.length = m.operandCount ∧
      ∀ e ∈ m.template.fields.zip operands, e.1.InRange e.2 := by
  have hfits : (∀ e ∈ m.template.fields.zip operands, e.1.Fits e.2) ↔
      ∀ e ∈ m.template.fields.zip operands, e.1.InRange e.2 :=
    forall₂_congr fun e he => Field.fits_iff_inRange (List.of_mem_zip he).1 e.2
  simp only [Mnemonic.encode, Template.encode_eq_ok_iff, Mnemonic.operandCount,
    Mnemonic.template_descriptor, hfits]
  exact ⟨fun ⟨_, h1, h2, _⟩ => ⟨h1, h2⟩, fun ⟨h1, h2⟩ => ⟨_, h1, h2, rfl⟩⟩

/-- An encoded word decodes to the mnemonic it was made for. -/
theorem decode_of_encode (h : m.encode operands = .ok w) :
    instructionSet.decode w = .ok m.descriptor := by
  rw [decode_eq_ok_iff build_all instructionSet_keyed]
  exact ⟨m.descriptor_mem, Template.matchesWord_of_encode m.template_wellFormed h⟩

/-- **An encoded word holds the canonical readings of its operands.** -/
theorem resolve_of_encode (h : m.encode operands = .ok w) :
    instructionSet.resolve w =
      .ok (m.instruction (m.template.fields.zipWith Field.canonical operands)) := by
  rw [resolve_eq_ok_iff]
  refine ⟨m.descriptor, decode_of_encode h, ?_⟩
  rw [Mnemonic.instruction, Mnemonic.template_descriptor,
    Template.extract_of_encode m.template_wellFormed h]

/-- A word that decodes to a mnemonic matches its template. -/
theorem matchesWord_of_decode {d : Descriptor} (h : instructionSet.decode w = .ok d) :
    d.mnemonic.descriptor = d ∧ d.mnemonic.template.matchesWord w := by
  obtain ⟨hd, hw⟩ := (decode_eq_ok_iff build_all instructionSet_keyed).1 h
  have heq := mem_descriptors_iff.1 hd
  refine ⟨heq, ?_⟩
  rw [← Mnemonic.template_descriptor, heq]
  exact hw

/-- **A decoded word is the encoding of the operands it holds.** -/
theorem encode_of_decode {d : Descriptor} (h : instructionSet.decode w = .ok d) :
    d.mnemonic.encode (d.mnemonic.template.extract w) = .ok w :=
  Template.encode_extract d.mnemonic.template_wellFormed d.mnemonic.template_complete
    (matchesWord_of_decode h).2

/-- **Encoding and decoding are inverse.** Encoding succeeds for the operands that
are as many as the mnemonic has and in the ranges of their fields. The word decodes
to the mnemonic, and it holds the operands with the 16-bit ones sign-extended. A
word that decodes to the mnemonic is what its operands encode to. So the words that
decode to a mnemonic are those that it encodes. -/
theorem Mnemonic.encode_inverse (m : Mnemonic) :
    (∀ operands, (∃ w, m.encode operands = .ok w) ↔ operands.length = m.operandCount ∧
      ∀ e ∈ m.template.fields.zip operands, e.1.InRange e.2) ∧
    (∀ operands w, m.encode operands = .ok w →
      instructionSet.decode w = .ok m.descriptor ∧
      instructionSet.resolve w =
        .ok ⟨m.descriptor.key, m.template.fields.zipWith Field.canonical operands⟩) ∧
    (∀ w d, instructionSet.decode w = .ok d → d.mnemonic = m →
      ∃ i, instructionSet.resolve w = .ok i ∧ m.encode i.operands = .ok w) ∧
    ∀ w, (∃ d, instructionSet.decode w = .ok d ∧ d.mnemonic = m) ↔
      ∃ operands, m.encode operands = .ok w := by
  -- a word that decodes is the encoding of what it holds
  have hback : ∀ w d, instructionSet.decode w = .ok d → d.mnemonic = m →
      ∃ i, instructionSet.resolve w = .ok i ∧ m.encode i.operands = .ok w := by
    rintro w d hd rfl
    have ht : d.mnemonic.template = d.template :=
      congrArg Descriptor.template (matchesWord_of_decode hd).1
    refine ⟨⟨d.key, d.template.extract w⟩, resolve_eq_ok_iff.2 ⟨d, hd, rfl⟩, ?_⟩
    rw [← ht]
    exact encode_of_decode hd
  refine ⟨fun _ => exists_encode_iff,
    fun _ _ h => ⟨decode_of_encode h, resolve_of_encode h⟩, hback, fun w => ⟨?_, ?_⟩⟩
  · rintro ⟨d, hd, hm⟩
    obtain ⟨i, -, hi⟩ := hback w d hd hm
    exact ⟨i.operands, hi⟩
  · rintro ⟨operands, h⟩
    exact ⟨m.descriptor, decode_of_encode h, rfl⟩

/-- The unsigned spelling of an immediate comes back signed, and encodes to the same
word. -/
theorem encode_inverse_harddrop :
    Mnemonic.harddrop.encode [9, 8, 0xffff] = .ok 0x2109ffff ∧
    instructionSet.decode 0x2109ffff = .ok Mnemonic.harddrop.descriptor ∧
    instructionSet.resolve 0x2109ffff = .ok ⟨Mnemonic.harddrop.descriptor.key, [9, 8, -1]⟩ ∧
    ∃ i, instructionSet.resolve 0x2109ffff = .ok i ∧
      Mnemonic.harddrop.encode i.operands = .ok 0x2109ffff := by
  obtain ⟨-, hforth, hback, -⟩ := Mnemonic.encode_inverse .harddrop
  have h : Mnemonic.harddrop.encode [9, 8, 0xffff] = .ok 0x2109ffff := rfl
  obtain ⟨hd, hr⟩ := hforth _ _ h
  exact ⟨h, hd, hr, hback _ _ hd rfl⟩

end TetrisMachine
