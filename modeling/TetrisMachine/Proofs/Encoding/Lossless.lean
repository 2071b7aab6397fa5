import Mathlib.Algebra.Ring.Int.Defs
import TetrisMachine.Proofs.Encoding.Packing

/-!
# Packing is lossless

A field of 16 bits takes the numbers that 16 bits can spell, signed or unsigned; a field of any
other width takes the numbers below two to its width. What a well-formed template packs can be
unpacked, and a template that leaves no bit open packs what it unpacks.

* `Field.Takes`: the operands of a field, as numbers.
* `Template.encode_eq_error_iff`: the operand that encoding refuses is the first that its field
  does not take.
* `Template.getLsbD_of_encode`: the bits of no field are the template's.
* `Template.encode_lossless`: packing and unpacking, for every well-formed template.
-/

namespace TetrisMachine

/-- The numbers that a field takes. -/
def Field.Takes (f : Field) (v : Word) : Prop :=
  if f.width = 16 then -32768 ≤ v.toInt ∧ v.toInt ≤ 65535 else 0 ≤ v.toInt ∧ v.toInt < 2 ^ f.width

instance (f : Field) (v : Word) : Decidable (f.Takes v) :=
  inferInstanceAs (Decidable (ite _ _ _))

theorem Field.fits_iff_takes {f : Field} {v : Word} : f.Fits v ↔ f.Takes v := by
  unfold Fits Takes
  by_cases h16 : f.width = 16
  · rw [if_pos h16, if_pos h16]
    omega
  · rw [if_neg h16, if_neg h16, Nat.one_shiftLeft]
    refine and_congr_right fun hnonneg => ?_
    have hv : v.toInt = v.toNat := toInt_eq_toNat_of_nonneg hnonneg
    have hpow : ((2 ^ f.width : Nat) : Int) = 2 ^ f.width := by norm_cast
    omega

namespace Template

/-- The field is the first of the template, in the order of its list, that does not take its
operand. -/
def Refuses (t : Template) (operands : List Word) (f : Field) (v : Word) : Prop :=
  (t.fields.zip operands).find? (fun e => ¬ e.1.Takes e.2) = some (f, v)

instance (t : Template) (operands : List Word) (f : Field) (v : Word) :
    Decidable (t.Refuses operands f v) :=
  inferInstanceAs (Decidable (_ = _))

variable {t : Template} {m : Mnemonic} {operands : List Word} {w : Word} {cause : EncodingError}

theorem foldlM_pack_eq_error_iff {entries : List (Field × Word)} {w : Word} :
    entries.foldlM (pack m) w = .error cause ↔
      ∃ f v, entries.find? (fun e => ¬ e.1.Takes e.2) = some (f, v) ∧
        cause = .operandOutOfRange m f.operand f.width v := by
  induction entries generalizing w with
  | nil => simp [pure, Except.pure]
  | cons e es ih =>
    obtain ⟨f, v⟩ := e
    rw [List.foldlM_cons]
    by_cases he : f.Takes v
    · -- the entry is packed, and the fault is one of the rest
      have hpack : pack m w (f, v) = .ok (w ||| f.insert v) := if_pos (Field.fits_iff_takes.2 he)
      rw [hpack, List.find?_cons_of_neg (by simpa using he)]
      exact ih
    · have hpack : pack m w (f, v) = .error (.operandOutOfRange m f.operand f.width v) :=
        if_neg (mt Field.fits_iff_takes.1 he)
      rw [hpack, List.find?_cons_of_pos (by simpa using he)]
      constructor
      · intro herror
        cases herror
        exact ⟨f, v, rfl, rfl⟩
      · rintro ⟨_, _, hfirst, rfl⟩
        cases hfirst
        rfl

/-- **Encoding refuses the first operand that its field does not take**, and names the field. -/
theorem encode_eq_error_iff (hlen : operands.length = t.operandCount) :
    t.encode m operands = .error cause ↔
      ∃ f v, t.Refuses operands f v ∧ cause = .operandOutOfRange m f.operand f.width v := by
  rw [encode, if_pos hlen, foldlM_pack_eq_error_iff]
  rfl

/-- Encoding succeeds if every field takes its operand. -/
theorem exists_encode_iff_takes (hlen : operands.length = t.operandCount) :
    (∃ w, t.encode m operands = .ok w) ↔ ∀ e ∈ t.fields.zip operands, e.1.Takes e.2 := by
  simp only [encode_eq_ok_iff, Field.fits_iff_takes]
  constructor
  · rintro ⟨w, -, htakes, -⟩
    exact htakes
  · intro htakes
    exact ⟨_, hlen, htakes, rfl⟩

/-- The bits of no field are as the template has them. -/
theorem getLsbD_of_encode (h : t.WellFormed) (he : t.encode m operands = .ok w) {i : Nat}
    (hi : ∀ f ∈ t.fields, ¬ f.Covers i) : w.getLsbD i = t.bits.getLsbD i := by
  obtain ⟨-, -, rfl⟩ := encode_eq_ok_iff.1 he
  have hfree : ∀ e ∈ t.fields.zip operands, ¬ e.1.Covers i :=
    fun e hmem => hi e.1 (List.of_mem_zip hmem).1
  exact getLsbD_insertAll_of_free (h.in_word_zip operands) hfree t.bits

/-- **Packing is lossless, for every well-formed template.** As many operands as fields are
encoded if every field takes its operand; otherwise the error names the first field that does not.
The word matches the template, has the template's bits outside the fields, and holds the operands,
those of 16 bits sign-extended. If no bit is left open, a word that matches is the encoding of the
operands that it holds. -/
theorem encode_lossless (t : Template) (h : t.WellFormed) (m : Mnemonic) :
    (∀ operands : List Word, operands.length = t.operandCount →
      ((∃ w, t.encode m operands = .ok w) ↔ ∀ e ∈ t.fields.zip operands, e.1.Takes e.2) ∧
      (∀ cause, t.encode m operands = .error cause ↔
        ∃ f v, t.Refuses operands f v ∧ cause = .operandOutOfRange m f.operand f.width v) ∧
      ∀ w, t.encode m operands = .ok w →
        t.matchesWord w ∧
        (∀ i, (∀ f ∈ t.fields, ¬ f.Covers i) → w.getLsbD i = t.bits.getLsbD i) ∧
        t.extract w = t.fields.zipWith Field.canonical operands) ∧
    (t.Complete → ∀ w, t.matchesWord w → t.encode m (t.extract w) = .ok w) := by
  refine ⟨fun operands hlen => ⟨exists_encode_iff_takes hlen, ?_, ?_⟩, ?_⟩
  · intro cause
    exact encode_eq_error_iff hlen
  · intro w hw
    have houtside (i : Nat) (hi : ∀ f ∈ t.fields, ¬ f.Covers i) :
        w.getLsbD i = t.bits.getLsbD i := getLsbD_of_encode h hw hi
    exact ⟨matchesWord_of_encode h hw, houtside, extract_of_encode h hw⟩
  · intro hcomplete w hw
    exact encode_extract h hcomplete hw

/-- A template of no instruction, with a signed field above an unsigned one and operands out of
order. The unsigned spelling of -1 comes back signed, and of two operands that are too large the
first one is named. -/
theorem encode_lossless_custom :
    let t : Template := ⟨0xff000000, 0xa5000000, [⟨7, 8, 16⟩, ⟨3, 0, 8⟩]⟩
    t.WellFormed ∧ t.Complete ∧
      t.encode .combo [0xffff, 200] = .ok 0xa5ffffc8 ∧ t.matchesWord 0xa5ffffc8 ∧
      t.extract 0xa5ffffc8 = [-1, 200] ∧ t.encode .combo (t.extract 0xa5ffffc8) = .ok 0xa5ffffc8 ∧
      t.Refuses [70000, 256] ⟨7, 8, 16⟩ 70000 ∧
      t.encode .combo [70000, 256] = .error (.operandOutOfRange .combo 7 16 70000) := by
  intro t
  have h : t.WellFormed := by decide
  have hcomplete : t.Complete := by decide
  have hencode : t.encode .combo [0xffff, 200] = .ok 0xa5ffffc8 :=
    encode_eq_ok_iff.2 ⟨rfl, by decide, by decide⟩
  have hrefuses : t.Refuses [70000, 256] ⟨7, 8, 16⟩ 70000 := by decide
  obtain ⟨hforth, hback⟩ := encode_lossless t h .combo
  obtain ⟨-, -, hok⟩ := hforth [0xffff, 200] rfl
  obtain ⟨-, herror, -⟩ := hforth [70000, 256] rfl
  obtain ⟨hmatches, -, hextract⟩ := hok _ hencode
  refine ⟨h, hcomplete, hencode, hmatches, ?_, hback hcomplete _ hmatches, hrefuses, ?_⟩
  · rw [hextract]
    decide
  · exact (herror _).2 ⟨_, _, hrefuses, rfl⟩

end Template

end TetrisMachine
