import Mathlib.Data.List.Pairwise
import TetrisMachine.Encoding.Template
import TetrisMachine.Proofs.Encoding.FieldBits

/-!
# Packing operands into a template

In a well-formed template no bit is given away twice: the fixed bits and the
fields are disjoint. Then every insertion leaves alone what is already packed,
what is still to come and the fixed bits.

* `encode_eq_ok_iff`: when encoding succeeds, and with which word.
* `extract_of_encode`: the operands that an encoded word holds.
* `encode_extract`: a word that matches is the encoding of what it holds, if
  every bit is fixed or a field's.
-/

namespace TetrisMachine

/-- No bit belongs to both fields. -/
def Field.Apart (f g : Field) : Prop :=
  ∀ i < 32, ¬ (f.Covers i ∧ g.Covers i)

instance (f g : Field) : Decidable (f.Apart g) :=
  Nat.decidableBallLT 32 _

instance : Std.Symm Field.Apart where
  symm _ _ h i hi := fun ⟨hg, hf⟩ => h i hi ⟨hf, hg⟩

namespace Template

/-- No bit of a word is given away twice, and every field can hold what is
extracted from it. -/
structure WellFormed (t : Template) : Prop where
  bits_within : t.bits &&& t.mask = t.bits
  width_pos : ∀ f ∈ t.fields, 1 ≤ f.width
  width_le : ∀ f ∈ t.fields, f.width ≤ 31
  in_word : ∀ f ∈ t.fields, f.shift + f.width ≤ 32
  apart : t.fields.Pairwise Field.Apart
  free : ∀ f ∈ t.fields, ∀ i < 32, f.Covers i → t.mask.getLsbD i = false

instance (t : Template) : Decidable t.WellFormed :=
  decidable_of_iff
    (t.bits &&& t.mask = t.bits ∧ (∀ f ∈ t.fields, 1 ≤ f.width) ∧ (∀ f ∈ t.fields, f.width ≤ 31) ∧
      (∀ f ∈ t.fields, f.shift + f.width ≤ 32) ∧ t.fields.Pairwise Field.Apart ∧
      ∀ f ∈ t.fields, ∀ i < 32, f.Covers i → t.mask.getLsbD i = false)
    ⟨fun ⟨h1, h2, h3, h4, h5, h6⟩ => ⟨h1, h2, h3, h4, h5, h6⟩,
      fun ⟨h1, h2, h3, h4, h5, h6⟩ => ⟨h1, h2, h3, h4, h5, h6⟩⟩

/-- Every bit is fixed or belongs to a field. -/
def Complete (t : Template) : Prop :=
  ∀ i < 32, t.mask.getLsbD i = true ∨ ∃ f ∈ t.fields, f.Covers i

instance (t : Template) : Decidable t.Complete :=
  Nat.decidableBallLT 32 _

/-- Puts operands into a word, one after another. -/
def insertAll (entries : List (Field × Word)) (w : Word) : Word :=
  entries.foldl (fun w e => w ||| e.1.insert e.2) w

variable {t : Template} {m : Mnemonic} {operands : List Word} {w : Word}

theorem foldlM_pack_eq_ok_iff {entries : List (Field × Word)} {w w' : Word} :
    entries.foldlM (pack m) w = .ok w' ↔
      (∀ e ∈ entries, e.1.Fits e.2) ∧ w' = insertAll entries w := by
  induction entries generalizing w with
  | nil => simp [insertAll, pure, Except.pure, eq_comm]
  | cons e es ih =>
    rw [List.foldlM_cons, List.forall_mem_cons]
    by_cases he : e.1.Fits e.2
    · simp [pack, he, bind, Except.bind, ih, insertAll]
    · simp [pack, he, bind, Except.bind]

/-- **Encoding succeeds if there are as many operands as fields and each fits its
field**, and it inserts them all. -/
theorem encode_eq_ok_iff :
    t.encode m operands = .ok w ↔ operands.length = t.operandCount ∧
      (∀ e ∈ t.fields.zip operands, e.1.Fits e.2) ∧
      w = insertAll (t.fields.zip operands) t.bits := by
  unfold encode
  split
  · next h => simp [h, foldlM_pack_eq_ok_iff]
  · next h => simp [h]

theorem getLsbD_insertAll (entries : List (Field × Word)) (w : Word) (i : Nat) :
    (insertAll entries w).getLsbD i =
      (w.getLsbD i || entries.any fun e => (e.1.insert e.2).getLsbD i) := by
  unfold insertAll
  induction entries generalizing w with
  | nil => simp
  | cons e es ih => rw [List.foldl_cons, ih, BitVec.getLsbD_or, List.any_cons, Bool.or_assoc]

/-- A bit of no field keeps its value. -/
theorem getLsbD_insertAll_of_free {entries : List (Field × Word)}
    (hin : ∀ e ∈ entries, e.1.shift + e.1.width ≤ 32) {i : Nat}
    (hi : ∀ e ∈ entries, ¬ e.1.Covers i) (w : Word) :
    (insertAll entries w).getLsbD i = w.getLsbD i := by
  have : (entries.any fun e => (e.1.insert e.2).getLsbD i) = false := by
    rw [List.any_eq_false]
    intro e he
    rw [Field.getLsbD_insert (hin e he)]
    simp [hi e he]
  rw [getLsbD_insertAll, this, Bool.or_false]

/-- A bit of one field is the bit of the operand that the field was given. -/
theorem getLsbD_insertAll_of_covers {entries : List (Field × Word)}
    (hin : ∀ e ∈ entries, e.1.shift + e.1.width ≤ 32)
    (hapart : entries.Pairwise fun e e' => e.1.Apart e'.1) {e : Field × Word} (he : e ∈ entries)
    {i : Nat} (hi : e.1.Covers i) {w : Word} (hw : w.getLsbD i = false) :
    (insertAll entries w).getLsbD i = e.2.getLsbD (i - e.1.shift) := by
  have hi32 : i < 32 := by have := hin e he; unfold Field.Covers at hi; omega
  -- the entry is the only one whose field has the bit
  have honly : ∀ e' ∈ entries, e'.1.Covers i → e' = e := by
    intro e' he' hi'
    by_contra hne
    have hsymm : Std.Symm fun e e' : Field × Word => e.1.Apart e'.1 :=
      ⟨fun _ _ h => Std.Symm.symm _ _ h⟩
    exact hapart.forall he' he hne i hi32 ⟨hi', hi⟩
  rw [getLsbD_insertAll, hw, Bool.false_or, Bool.eq_iff_iff, List.any_eq_true]
  constructor
  · rintro ⟨e', he', hb⟩
    rw [Field.getLsbD_insert (hin e' he'), Bool.and_eq_true, decide_eq_true_eq] at hb
    rw [← honly e' he' hb.1]
    exact hb.2
  · intro hb
    refine ⟨e, he, ?_⟩
    rw [Field.getLsbD_insert (hin e he)]
    simp [hi, hb]

theorem WellFormed.bits_eq_false (h : t.WellFormed) {f : Field} (hf : f ∈ t.fields) {i : Nat}
    (hi : f.Covers i) : t.bits.getLsbD i = false := by
  have hi32 : i < 32 := by have := h.in_word f hf; unfold Field.Covers at hi; omega
  rw [← h.bits_within, BitVec.getLsbD_and, h.free f hf i hi32 hi, Bool.and_false]

theorem WellFormed.not_covers (h : t.WellFormed) {f : Field} (hf : f ∈ t.fields) {i : Nat}
    (hm : t.mask.getLsbD i = true) : ¬ f.Covers i := by
  intro hi
  have hi32 : i < 32 := BitVec.lt_of_getLsbD hm
  rw [h.free f hf i hi32 hi] at hm
  cases hm

theorem pairwise_zip {α β : Type} {R : α → α → Prop} {l : List α} (h : l.Pairwise R)
    (l' : List β) : (l.zip l').Pairwise fun e e' => R e.1 e'.1 := by
  induction h generalizing l' with
  | nil => simp
  | cons hR _ ih =>
    cases l' with
    | nil => simp
    | cons b bs =>
      rw [List.zip_cons_cons, List.pairwise_cons]
      exact ⟨fun e he => hR e.1 (List.of_mem_zip he).1, ih bs⟩

section

variable (h : t.WellFormed) (operands)
include h

theorem WellFormed.in_word_zip : ∀ e ∈ t.fields.zip operands, e.1.shift + e.1.width ≤ 32 :=
  fun e he => h.in_word e.1 (List.of_mem_zip he).1

theorem WellFormed.apart_zip :
    (t.fields.zip operands).Pairwise fun e e' => e.1.Apart e'.1 :=
  pairwise_zip h.apart operands

end

/-- The fixed bits survive the insertions. -/
theorem matchesWord_insertAll (h : t.WellFormed) (operands : List Word) :
    t.matchesWord (insertAll (t.fields.zip operands) t.bits) := by
  rw [matches_iff]
  apply BitVec.eq_of_getLsbD_eq
  intro i _
  rw [BitVec.getLsbD_and]
  -- no field has a fixed bit, and outside the mask both sides are clear
  cases hm : t.mask.getLsbD i with
  | true =>
    have hfree : ∀ e ∈ t.fields.zip operands, ¬ e.1.Covers i :=
      fun e he => h.not_covers (List.of_mem_zip he).1 hm
    rw [getLsbD_insertAll_of_free (h.in_word_zip operands) hfree, Bool.and_true]
  | false => rw [← h.bits_within, BitVec.getLsbD_and, hm, Bool.and_false, Bool.and_false]

/-- An encoded word matches its template. -/
theorem matchesWord_of_encode (h : t.WellFormed) (he : t.encode m operands = .ok w) :
    t.matchesWord w := by
  obtain ⟨-, -, rfl⟩ := encode_eq_ok_iff.1 he
  exact matchesWord_insertAll h operands

/-- **An encoded word holds the operands it was made of**, in their canonical
reading. -/
theorem extract_of_encode (h : t.WellFormed) (he : t.encode m operands = .ok w) :
    t.extract w = t.fields.zipWith Field.canonical operands := by
  obtain ⟨hlen, hfits, rfl⟩ := encode_eq_ok_iff.1 he
  have hfst : (t.fields.zip operands).map Prod.fst = t.fields :=
    List.map_fst_zip (Nat.le_of_eq hlen.symm)
  have hmap (g : Field → Word) : t.fields.map g = (t.fields.zip operands).map (g ∘ Prod.fst) := by
    rw [← List.map_map, hfst]
  rw [← List.map_uncurry_zip_eq_zipWith, extract, hmap]
  -- each field reads the operand that was put there, by the bits it covers
  refine List.map_congr_left fun e hmem => ?_
  have hf := (List.of_mem_zip hmem).1
  have hin := h.in_word e.1 hf
  refine Field.extract_eq_canonical (by omega) (hfits e hmem) fun i hi => ?_
  have hcov : e.1.Covers (e.1.shift + i) := ⟨by omega, by omega⟩
  rw [getLsbD_insertAll_of_covers (h.in_word_zip operands) (h.apart_zip operands) hmem hcov
    (h.bits_eq_false hf hcov), Nat.add_sub_cancel_left]

/-- **A word that matches is the encoding of the operands it holds**, if the
template leaves no bit open. -/
theorem encode_extract (h : t.WellFormed) (hc : t.Complete) (hw : t.matchesWord w) :
    t.encode m (t.extract w) = .ok w := by
  have hzip : t.fields.zip (t.extract w) = t.fields.map fun f => (f, f.extract w) := by
    have := List.zip_map' (f := id) (g := fun f : Field => f.extract w) (l := t.fields)
    simpa [extract] using this
  refine encode_eq_ok_iff.2 ⟨by simp [extract, operandCount], ?_, ?_⟩
  · rw [hzip, List.forall_mem_map]
    exact fun f hf => Field.fits_extract (h.width_le f hf) w
  · have hm := (matches_iff t w).1 hw
    apply BitVec.eq_of_getLsbD_eq
    intro i hi
    -- a bit is fixed, and set by the template, or a field's, and set by its operand
    rcases hc i hi with hmask | ⟨f, hf, hcov⟩
    · have hfree : ∀ e ∈ t.fields.zip (t.extract w), ¬ e.1.Covers i :=
        fun e he => h.not_covers (List.of_mem_zip he).1 hmask
      rw [getLsbD_insertAll_of_free (h.in_word_zip _) hfree, ← hm, BitVec.getLsbD_and, hmask,
        Bool.and_true]
    · have hmem : (f, f.extract w) ∈ t.fields.zip (t.extract w) := by
        rw [hzip]
        exact List.mem_map.2 ⟨f, hf, rfl⟩
      have hin := h.in_word f hf
      obtain ⟨hl, hu⟩ := id hcov
      have hlow : i - f.shift < f.width := by omega
      rw [getLsbD_insertAll_of_covers (h.in_word_zip _) (h.apart_zip _) hmem hcov
        (h.bits_eq_false hf hcov), Field.getLsbD_extract (by omega) w hlow,
        show f.shift + (i - f.shift) = i by omega]

end Template

end TetrisMachine
