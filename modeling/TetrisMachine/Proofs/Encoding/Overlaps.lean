import TetrisMachine.InstructionSet
import TetrisMachine.Proofs.Decoding

/-!
# The overlap test is exact

A template is a pattern: it fixes some bits and leaves the others open. Two patterns are compatible
if they agree wherever both fix a bit, and then the fixed bits of both, put together, are a word
that matches both. The test on masks is this test, so a list of templates is refused exactly if a
word matches two of its entries.

* `Template.overlaps_iff`, `Template.matchesWord_iff`: the tests, bit by bit.
* `Template.overlaps_iff_exists_matchesWord`: templates overlap if a word matches both.
* `findClash_eq_some`: the entries that a search for clashes finds.
* `Template.overlaps_exact`: the test on two templates, and on every two of a list.
-/

namespace TetrisMachine

namespace Template

/-- The template gives values to no other bits than those it fixes. -/
def BitsWithin (t : Template) : Prop :=
  t.bits &&& t.mask = t.bits

instance (t : Template) : Decidable t.BitsWithin :=
  inferInstanceAs (Decidable (_ = _))

section

variable {t t' : Template} {w : Word}

theorem BitsWithin.mask_of_bits (h : t.BitsWithin) {i : Nat} (hi : t.bits.getLsbD i = true) :
    t.mask.getLsbD i = true := by
  rw [← h, BitVec.getLsbD_and, Bool.and_eq_true] at hi
  exact hi.2

/-- A word matches if it has the values of the fixed bits. -/
theorem matchesWord_iff (h : t.BitsWithin) :
    t.matchesWord w ↔ ∀ i, t.mask.getLsbD i = true → w.getLsbD i = t.bits.getLsbD i := by
  rw [matches_iff]
  constructor
  · intro hw i hi
    rw [← hw, BitVec.getLsbD_and, hi, Bool.and_true]
  · intro hw
    apply BitVec.eq_of_getLsbD_eq
    intro i _
    rw [BitVec.getLsbD_and]
    cases hi : t.mask.getLsbD i with
    | true => rw [hw i hi, Bool.and_true]
    | false =>
      -- outside the mask the template has no bits
      have hbits : t.bits.getLsbD i ≠ true := fun hb => by simp [h.mask_of_bits hb] at hi
      rw [Bool.and_false, Bool.eq_false_iff.2 hbits]

/-- Templates overlap if they agree on the bits that both fix. -/
theorem overlaps_iff : t.overlaps t' ↔
    ∀ i, t.mask.getLsbD i = true → t'.mask.getLsbD i = true →
      t.bits.getLsbD i = t'.bits.getLsbD i := by
  rw [overlaps, beq_iff_eq]
  constructor
  · intro hzero i hi hi'
    have hbit := congrArg (BitVec.getLsbD · i) hzero
    simpa [hi, hi'] using hbit
  · intro hagree
    apply BitVec.eq_of_getLsbD_eq
    intro i _
    rw [BitVec.getLsbD_and, BitVec.getLsbD_and, BitVec.getLsbD_xor]
    cases hi : t.mask.getLsbD i <;> cases hi' : t'.mask.getLsbD i <;> simp [hagree i, hi, hi']

/-- The fixed bits of two templates that overlap, put together, match each of them. -/
theorem matchesWord_or (h : t.BitsWithin) (h' : t'.BitsWithin) (hover : t.overlaps t') :
    t.matchesWord (t.bits ||| t'.bits) := by
  rw [matchesWord_iff h]
  intro i hi
  rw [BitVec.getLsbD_or]
  cases hb' : t'.bits.getLsbD i with
  | false => rw [Bool.or_false]
  | true =>
    -- the other template fixes the bit too, and so to the same value
    have hagree : t.bits.getLsbD i = t'.bits.getLsbD i :=
      overlaps_iff.1 hover i hi (h'.mask_of_bits hb')
    rw [hagree, hb', Bool.or_true]

/-- **Templates overlap if and only if a word matches both.** -/
theorem overlaps_iff_exists_matchesWord (h : t.BitsWithin) (h' : t'.BitsWithin) :
    t.overlaps t' ↔ ∃ w, t.matchesWord w ∧ t'.matchesWord w := by
  constructor
  · intro hover
    have hover' : t'.overlaps t := by rwa [overlaps_comm]
    have hmatches' : t'.matchesWord (t'.bits ||| t.bits) := matchesWord_or h' h hover'
    rw [BitVec.or_comm] at hmatches'
    exact ⟨_, matchesWord_or h h' hover, hmatches'⟩
  · rintro ⟨w, hw, hw'⟩
    exact overlaps_of_matchesWord hw hw'

end

end Template

/-! ### Lists of templates -/

section

variable {α : Type} {clash : α → α → Bool} {as : List α}

/-- What is found clashes, and stands in the list in this order. -/
theorem findClash_eq_some {a b : α} (h : findClash clash as = some (a, b)) :
    clash a b ∧ ∃ i j : Fin as.length, i < j ∧ as.get i = a ∧ as.get j = b := by
  induction as with
  | nil => cases h
  | cons x xs ih =>
    rw [findClash] at h
    split at h
    · next y hy =>
      cases h
      obtain ⟨j, hj, hget⟩ := List.getElem_of_mem (List.mem_of_find?_eq_some hy)
      refine ⟨List.find?_some hy, 0, ⟨j + 1, Nat.succ_lt_succ hj⟩, ?_, rfl, hget⟩
      exact Nat.succ_pos j
    · obtain ⟨hclash, i, j, hij, hi, hj⟩ := ih h
      exact ⟨hclash, i.succ, j.succ, Fin.succ_lt_succ_iff.2 hij, hi, hj⟩

/-- A list has a clash if and only if entries at different positions clash, for a relation that is
symmetric. -/
theorem findClash_ne_none_iff (hsymm : ∀ a b, clash a b = clash b a) :
    findClash clash as ≠ none ↔ ∃ i j : Fin as.length, i ≠ j ∧ clash (as.get i) (as.get j) := by
  rw [Ne, findClash_eq_none_iff, List.pairwise_iff_get]
  constructor
  · intro hsome
    by_contra hnone
    refine hsome fun i j hij => Bool.eq_false_iff.2 fun hclash => ?_
    exact hnone ⟨i, j, Fin.ne_of_lt hij, hclash⟩
  · rintro ⟨i, j, hne, hclash⟩ hnone
    -- the search goes through the pairs in one order only
    rcases Fin.lt_or_lt_of_ne hne with hij | hji
    · rw [hnone i j hij] at hclash
      cases hclash
    · rw [hsymm, hnone j i hji] at hclash
      cases hclash

end

namespace Catalog

variable {clash : Descriptor → Descriptor → Bool} {ds : List Descriptor} {cause : EncodingError}

/-- The refusal names the descriptors that clash. -/
theorem reject_eq_error_iff : reject clash ds = .error cause ↔
    ∃ d d', findClash clash ds = some (d, d') ∧
      cause = .templateOverlap d.mnemonic d'.mnemonic := by
  unfold reject
  cases findClash clash ds with
  | none => simp
  | some p =>
    obtain ⟨d, d'⟩ := p
    constructor
    · intro h
      cases h
      exact ⟨d, d', rfl, rfl⟩
    · rintro ⟨_, _, hpair, rfl⟩
      cases hpair
      rfl

theorem exists_reject_eq_error_iff :
    (∃ cause, reject clash ds = .error cause) ↔ findClash clash ds ≠ none := by
  simp only [reject_eq_error_iff]
  rw [Option.ne_none_iff_exists']
  constructor
  · rintro ⟨_, d, d', hfound, -⟩
    exact ⟨(d, d'), hfound⟩
  · rintro ⟨⟨d, d'⟩, hfound⟩
    exact ⟨_, d, d', hfound, rfl⟩

/-- A word matches two entries at different positions. -/
def Ambiguous (ds : List Descriptor) (w : Word) : Prop :=
  ∃ i j : Fin ds.length, i ≠ j ∧ (ds.get i).template.matchesWord w ∧
    (ds.get j).template.matchesWord w

end Catalog

namespace Template

/-- **The overlap test is exact.** Templates overlap if and only if a word matches both, and
overlapping is symmetric. The test of every two entries of a list refuses the list if and only if
a word matches two entries at different positions, and the refusal names two such entries. -/
theorem overlaps_exact (t t' : Template) (h : t.BitsWithin) (h' : t'.BitsWithin)
    (ds : List Descriptor) (hds : ∀ d ∈ ds, d.template.BitsWithin) :
    let refusal := Catalog.reject (fun d d' => d.template.overlaps d'.template) ds
    (t.overlaps t' ↔ ∃ w, t.matchesWord w ∧ t'.matchesWord w) ∧
    t.overlaps t' = t'.overlaps t ∧
    ((∃ cause, refusal = .error cause) ↔ ∃ w, Catalog.Ambiguous ds w) ∧
    ∀ cause, refusal = .error cause → ∃ i j : Fin ds.length, i < j ∧
      cause = .templateOverlap (ds.get i).mnemonic (ds.get j).mnemonic ∧
      ∃ w, (ds.get i).template.matchesWord w ∧ (ds.get j).template.matchesWord w := by
  intro refusal
  have hget (i : Fin ds.length) : (ds.get i).template.BitsWithin := hds _ (List.get_mem ds i)
  have hshared (i j : Fin ds.length) :
      (ds.get i).template.overlaps (ds.get j).template ↔
        ∃ w, (ds.get i).template.matchesWord w ∧ (ds.get j).template.matchesWord w :=
    overlaps_iff_exists_matchesWord (hget i) (hget j)
  refine ⟨overlaps_iff_exists_matchesWord h h', overlaps_comm t t', ?_, ?_⟩
  · rw [Catalog.exists_reject_eq_error_iff, findClash_ne_none_iff fun d d' => overlaps_comm _ _]
    simp only [hshared]
    constructor
    · rintro ⟨i, j, hne, w, hi, hj⟩
      exact ⟨w, i, j, hne, hi, hj⟩
    · rintro ⟨w, i, j, hne, hi, hj⟩
      exact ⟨i, j, hne, w, hi, hj⟩
  · intro cause hcause
    obtain ⟨d, d', hfound, rfl⟩ := Catalog.reject_eq_error_iff.1 hcause
    obtain ⟨hover, i, j, hij, rfl, rfl⟩ := findClash_eq_some hfound
    exact ⟨i, j, hij, rfl, (hshared i j).1 hover⟩

/-- Two templates that fix some bits in common and some each alone, and between them an entry that
overlaps the last one only. The first and the last are named, since the pairs with the first entry
are tested first. -/
theorem overlaps_exact_first_last :
    let t : Template := ⟨0xfc0007ff, 0x00000020, [⟨0, 11, 5⟩, ⟨1, 21, 5⟩, ⟨2, 16, 5⟩]⟩
    let t' : Template := ⟨0xfc0f0000, 0x00030000, [⟨0, 0, 16⟩]⟩
    let ds : List Descriptor :=
      [⟨.stack, .registers, t⟩, Mnemonic.garbage.descriptor, ⟨.combo, .immediate, t'⟩]
    let refusal := Catalog.reject (fun d d' => d.template.overlaps d'.template) ds
    t.BitsWithin ∧ t'.BitsWithin ∧ (∀ d ∈ ds, d.template.BitsWithin) ∧
      (∃ w, t.matchesWord w ∧ t'.matchesWord w) ∧
      refusal = .error (.templateOverlap .stack .combo) ∧
      (∃ w, Catalog.Ambiguous ds w) ∧ ∃ i j : Fin ds.length, i < j ∧
        .templateOverlap .stack .combo =
          EncodingError.templateOverlap (ds.get i).mnemonic (ds.get j).mnemonic ∧
        ∃ w, (ds.get i).template.matchesWord w ∧ (ds.get j).template.matchesWord w := by
  intro t t' ds refusal
  have h : t.BitsWithin := by decide
  have h' : t'.BitsWithin := by decide
  have hds : ∀ d ∈ ds, d.template.BitsWithin := by decide
  have hrefusal : refusal = .error (.templateOverlap .stack .combo) :=
    Catalog.reject_eq_error_iff.2 ⟨ds.get 0, ds.get 2, by decide, rfl⟩
  obtain ⟨hshared, -, hlist, hnamed⟩ := overlaps_exact t t' h h' ds hds
  exact ⟨h, h', hds, hshared.1 (by decide), hrefusal, hlist.1 ⟨_, hrefusal⟩, hnamed _ hrefusal⟩

end Template

end TetrisMachine
