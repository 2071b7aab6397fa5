import Mathlib.Data.List.Nodup
import TetrisMachine.Catalog
import TetrisMachine.Proofs.Encoding.Columns
import TetrisMachine.Proofs.Encoding.Overlaps
import TetrisMachine.Proofs.Encoding.Packing

/-!
# Layouts and the templates they draw

The columns of a layout are read from the highest bit down, and after each of them the template is
the one that the columns so far draw: that is the invariant. A field is split exactly if its letter
was drawn before and is not the letter of the column just read.

* `Layout.Drawn`: a template is the one that some columns draw.
* `Layout.Drawn.exists_readColumn`, `Layout.Drawn.readColumns`: one column, and all of them.
* `Layout.FieldsDrawn.exists_orderFields_iff`: when the fields can be put in order.
* `Template.Partitioned`: the fixed bits and the fields share out the bits of a word.
* `Template.ofLayout_exact`: which layouts are read, and that nothing of them is lost.
-/

namespace TetrisMachine

namespace Layout

/-! ### Fields -/

/-- A field has the bits whose columns are its letter. -/
structure Spans (n : Nat) (done : List Char) (f : Field) : Prop where
  width_pos : 1 ≤ f.width
  operand_lt : f.operand < letters.length
  covers_iff : ∀ i, f.Covers i ↔ columnAt n done i = letters[f.operand]?

/-- The fields, the one read last first, are those that some columns draw. -/
structure FieldsDrawn (n : Nat) (done : List Char) (fields : List Field) : Prop where
  spans : ∀ f ∈ fields, Spans n done f
  /-- Every letter that is drawn has a field. -/
  drawn : ∀ k a, letters[k]? = some a → a ∈ done → ∃ f ∈ fields, f.operand = k
  /-- No two fields are of the same operand. -/
  distinct : (fields.map (·.operand)).Nodup
  /-- The field that reaches down to the lowest column is the one read last. -/
  newest : ∀ f ∈ fields, f.shift = n → fields.head? = some f

section

variable {n k : Nat} {c : Char} {done : List Char} {f : Field} {fields : List Field}

theorem Spans.covers_shift (h : Spans n done f) : f.Covers f.shift :=
  ⟨Nat.le_refl _, Nat.lt_add_of_pos_right h.width_pos⟩

theorem Spans.exists_letter (h : Spans n done f) : ∃ a ∈ letters, letters[f.operand]? = some a :=
  ⟨_, List.getElem_mem h.operand_lt, List.getElem?_eq_getElem h.operand_lt⟩

/-- A field has no bits below the columns. -/
theorem Spans.le_shift (h : Spans n done f) : n ≤ f.shift := by
  obtain ⟨a, -, ha⟩ := h.exists_letter
  exact le_of_columnAt (((h.covers_iff _).1 h.covers_shift).trans ha)

/-- A field has no bits past the columns. -/
theorem Spans.le_length (h : Spans n done f) : f.shift + f.width ≤ n + done.length := by
  have hlast : f.Covers (f.shift + f.width - 1) := by
    have hpos : 1 ≤ f.width := h.width_pos
    unfold Field.Covers
    omega
  obtain ⟨a, -, ha⟩ := h.exists_letter
  have hlt := lt_of_columnAt (((h.covers_iff _).1 hlast).trans ha)
  omega

/-- Fields that overlap are of the same letter, so different ones are apart. -/
theorem Spans.apart {g : Field} (hf : Spans n done f) (hg : Spans n done g)
    (hne : f.operand ≠ g.operand) : f.Apart g := by
  rintro i - ⟨hfi, hgi⟩
  obtain ⟨a, -, ha⟩ := hf.exists_letter
  have hcolumn : letters[g.operand]? = letters[f.operand]? :=
    ((hg.covers_iff i).1 hgi).symm.trans ((hf.covers_iff i).1 hfi)
  exact hne (letters_inj ha (hcolumn.trans ha))

/-- A field of columns above bit `n` does not reach down to it. -/
theorem Spans.shift_ne (h : Spans (n + 1) done f) : f.shift ≠ n := by
  have hle : n + 1 ≤ f.shift := h.le_shift
  omega

theorem Spans.mem_of_letter (h : Spans n done f) (hc : letters[f.operand]? = some c) : c ∈ done :=
  mem_of_columnAt (((h.covers_iff _).1 h.covers_shift).trans hc)

/-- A field of the letter in the lowest column reaches down to it. -/
theorem Spans.shift_eq_iff (h : Spans n done f) (hc : letters[f.operand]? = some c) :
    f.shift = n ↔ done.head? = some c := by
  rw [← hc, ← columnAt_self, ← h.covers_iff]
  have hle : n ≤ f.shift := h.le_shift
  have hpos : 1 ≤ f.width := h.width_pos
  unfold Field.Covers
  omega

/-- A column of another letter leaves a field as it is. -/
theorem Spans.keep (h : Spans (n + 1) done f) (hc : letters[f.operand]? ≠ some c) :
    Spans n (c :: done) f := by
  refine ⟨h.width_pos, h.operand_lt, fun i => ?_⟩
  rw [columnAt_cons]
  by_cases hi : i = n
  · have hle : n + 1 ≤ f.shift := h.le_shift
    rw [if_pos hi]
    refine iff_of_false ?_ hc.symm
    rintro ⟨hl, -⟩
    omega
  · rw [if_neg hi]
    exact h.covers_iff i

/-- A column next to a field of its letter is added to the field. -/
theorem Spans.extend (h : Spans (n + 1) done f) (hc : letters[f.operand]? = some c)
    (hshift : f.shift = n + 1) :
    Spans n (c :: done) { f with shift := n, width := f.width + 1 } := by
  refine ⟨Nat.le_add_left 1 _, h.operand_lt, fun i => ?_⟩
  rw [columnAt_cons]
  by_cases hi : i = n
  · rw [if_pos hi]
    exact iff_of_true ⟨Nat.le_of_eq hi.symm, by simp only; omega⟩ hc.symm
  · rw [if_neg hi, ← h.covers_iff]
    unfold Field.Covers
    simp only
    omega

/-- A column of a letter that was not drawn yet is a field of its own. -/
theorem spans_new (hk : letters[k]? = some c) (hc : c ∉ done) : Spans n (c :: done) ⟨k, n, 1⟩ := by
  refine ⟨Nat.le_refl 1, (List.getElem?_eq_some_iff.1 hk).1, fun i => ?_⟩
  rw [columnAt_cons]
  by_cases hi : i = n
  · rw [if_pos hi]
    exact iff_of_true ⟨Nat.le_of_eq hi.symm, by simp only; omega⟩ hk.symm
  · rw [if_neg hi]
    refine iff_of_false ?_ fun hcolumn => hc (mem_of_columnAt (hcolumn.trans hk))
    rintro ⟨hl, hu⟩
    simp only at hl hu
    omega

theorem extendField_of_fresh (h : ∀ f ∈ fields, f.operand ≠ k) :
    Template.extendField n k fields = .ok (⟨k, n, 1⟩ :: fields) := by
  cases fields with
  | nil => rfl
  | cons f fs =>
    have hany : ((f :: fs).any fun g => decide (g.operand = k)) = false := by
      simpa using h
    have hf : ¬ (f.operand = k ∧ f.shift = n + 1) := fun hf => h f List.mem_cons_self hf.1
    rw [Template.extendField, if_neg hf, hany]
    rfl

/-- A fixed bit belongs to no field. -/
theorem FieldsDrawn.fix (h : FieldsDrawn (n + 1) done fields) (hc : c ∉ letters) :
    FieldsDrawn n (c :: done) fields where
  spans f hf := (h.spans f hf).keep fun hletter => hc (List.mem_of_getElem? hletter)
  drawn k a hk ha := by
    rcases List.mem_cons.1 ha with rfl | ha
    · exact absurd (List.mem_of_getElem? hk) hc
    · exact h.drawn k a hk ha
  distinct := h.distinct
  newest f hf hshift := absurd hshift (h.spans f hf).shift_ne

/-- The fields after a column that joins the field read last. -/
theorem FieldsDrawn.extend (h : FieldsDrawn (n + 1) done (f :: fields))
    (hc : letters[f.operand]? = some c) (hshift : f.shift = n + 1) :
    FieldsDrawn n (c :: done) ({ f with shift := n, width := f.width + 1 } :: fields) := by
  obtain ⟨hf, hfields⟩ := List.forall_mem_cons.1 h.spans
  have hother : ∀ g ∈ fields, g.operand ≠ f.operand := by
    intro g hg heq
    exact (List.nodup_cons.1 h.distinct).1 (List.mem_map.2 ⟨g, hg, heq⟩)
  constructor
  · refine List.forall_mem_cons.2 ⟨hf.extend hc hshift, fun g hg => (hfields g hg).keep ?_⟩
    exact fun hletter => hother g hg (letters_inj hletter hc)
  · intro k a hk ha
    rcases List.mem_cons.1 ha with rfl | ha
    · exact ⟨_, List.mem_cons_self, letters_inj hc hk⟩
    · obtain ⟨g, hg, hgk⟩ := h.drawn k a hk ha
      rcases List.mem_cons.1 hg with rfl | hg
      · exact ⟨_, List.mem_cons_self, hgk⟩
      · exact ⟨g, List.mem_cons_of_mem _ hg, hgk⟩
  · exact h.distinct
  · intro g hg hgn
    rcases List.mem_cons.1 hg with rfl | hg
    · rfl
    · exact absurd hgn (hfields g hg).shift_ne

/-- The fields after a column that opens a field. -/
theorem FieldsDrawn.push (h : FieldsDrawn (n + 1) done fields) (hk : letters[k]? = some c)
    (hc : c ∉ done) : FieldsDrawn n (c :: done) (⟨k, n, 1⟩ :: fields) := by
  have hother : ∀ g ∈ fields, g.operand ≠ k := by
    rintro g hg rfl
    exact hc ((h.spans g hg).mem_of_letter hk)
  constructor
  · refine List.forall_mem_cons.2 ⟨spans_new hk hc, fun g hg => (h.spans g hg).keep ?_⟩
    exact fun hletter => hother g hg (letters_inj hletter hk)
  · intro k' a hk' ha
    rcases List.mem_cons.1 ha with rfl | ha
    · exact ⟨_, List.mem_cons_self, letters_inj hk hk'⟩
    · obtain ⟨g, hg, hgk⟩ := h.drawn k' a hk' ha
      exact ⟨g, List.mem_cons_of_mem _ hg, hgk⟩
  · refine List.nodup_cons.2 ⟨fun hmem => ?_, h.distinct⟩
    obtain ⟨g, hg, hgk⟩ := List.mem_map.1 hmem
    exact hother g hg hgk
  · intro g hg hgn
    rcases List.mem_cons.1 hg with rfl | hg
    · rfl
    · exact absurd hgn (h.spans g hg).shift_ne

/-- **A letter that stands next to its kind, or is the first of its kind, is read.** -/
theorem FieldsDrawn.exists_extendField (h : FieldsDrawn (n + 1) done fields)
    (hk : letters[k]? = some c) (hjoined : c ∈ done → done.head? = some c) :
    ∃ fields', Template.extendField n k fields = .ok fields' ∧
      FieldsDrawn n (c :: done) fields' := by
  by_cases hc : c ∈ done
  · obtain ⟨f, hf, rfl⟩ := h.drawn k c hk hc
    have hshift : f.shift = n + 1 := ((h.spans f hf).shift_eq_iff hk).2 (hjoined hc)
    -- the field reaches down to the column before, so it is the one read last
    obtain ⟨fs, rfl⟩ : ∃ fs, fields = f :: fs :=
      ⟨_, List.eq_cons_of_mem_head? (h.newest f hf hshift)⟩
    exact ⟨_, if_pos ⟨rfl, hshift⟩, h.extend hk hshift⟩
  · have hfresh : ∀ f ∈ fields, f.operand ≠ k := by
      rintro f hf rfl
      exact hc ((h.spans f hf).mem_of_letter hk)
    exact ⟨_, extendField_of_fresh hfresh, h.push hk hc⟩

/-- A letter that was drawn before, but not in the column before, splits its field. -/
theorem FieldsDrawn.extendField_eq_error (h : FieldsDrawn (n + 1) done fields)
    (hk : letters[k]? = some c) (hc : c ∈ done) (hapart : done.head? ≠ some c) :
    Template.extendField n k fields = .error .splitField := by
  obtain ⟨g, hg, hgk⟩ := h.drawn k c hk hc
  cases fields with
  | nil => cases hg
  | cons f fs =>
    have hf : ¬ (f.operand = k ∧ f.shift = n + 1) := by
      rintro ⟨rfl, hshift⟩
      exact hapart (((h.spans f List.mem_cons_self).shift_eq_iff hk).1 hshift)
    have hany : ((f :: fs).any fun g => decide (g.operand = k)) = true :=
      List.any_eq_true.2 ⟨g, hg, decide_eq_true hgk⟩
    rw [Template.extendField, if_neg hf, hany]
    rfl

end

/-! ### Templates under construction -/

/-- The template is the one that some columns draw. -/
structure Drawn (n : Nat) (done : List Char) (t : Template) : Prop where
  mask_iff : ∀ i, t.mask.getLsbD i = true ↔
    columnAt n done i = some '0' ∨ columnAt n done i = some '1'
  bits_iff : ∀ i, t.bits.getLsbD i = true ↔ columnAt n done i = some '1'
  fields : FieldsDrawn n done t.fields

section

variable {n k : Nat} {c : Char} {cs done : List Char} {t t' : Template}

theorem drawn_nil (n : Nat) : Drawn n [] ⟨0, 0, []⟩ := by
  have hnone (i : Nat) : columnAt n [] i = none := by simp [columnAt]
  refine ⟨fun i => ?_, fun i => ?_, ?_⟩
  · simp [hnone]
  · simp [hnone]
  · constructor
    · intro f hf
      exact absurd hf List.not_mem_nil
    · intro k a _ ha
      exact absurd ha List.not_mem_nil
    · exact List.nodup_nil
    · intro f hf
      exact absurd hf List.not_mem_nil

theorem getLsbD_or_twoPow {w : Word} (hn : n < 32) (i : Nat) :
    (w ||| BitVec.twoPow 32 n).getLsbD i = true ↔ i = n ∨ w.getLsbD i = true := by
  rw [BitVec.getLsbD_or, BitVec.getLsbD_twoPow, decide_eq_true hn, Bool.true_and, Bool.or_eq_true,
    decide_eq_true_eq, or_comm, eq_comm (a := n)]

theorem readColumn_of_letter (hk : letters[k]? = some c) :
    Template.readColumn n c t =
      (Template.extendField n k t.fields).map ({ t with fields := · }) := by
  match k, hk with
  | 0, rfl => rfl
  | 1, rfl => rfl
  | 2, rfl => rfl

/-- **A column that may stand there is read**, and the template is the one that the columns draw. -/
theorem Drawn.exists_readColumn (h : Drawn (n + 1) done t) (hn : n < 32)
    (hc : Continues c done) :
    ∃ t', Template.readColumn n c t = .ok t' ∧ Drawn n (c :: done) t' := by
  obtain ⟨hmask, hbits, hfields⟩ := h
  rcases List.mem_cons.1 hc.mem with rfl | hrest
  · refine ⟨_, rfl, fun i => ?_, fun i => ?_, hfields.fix (by decide)⟩
    · rw [getLsbD_or_twoPow hn, hmask]
      simp [columnAt_cons_eq_some_iff, or_assoc]
    · rw [hbits]
      simp [columnAt_cons_eq_some_iff]
  rcases List.mem_cons.1 hrest with rfl | hletter
  · refine ⟨_, rfl, fun i => ?_, fun i => ?_, hfields.fix (by decide)⟩
    · rw [getLsbD_or_twoPow hn, hmask]
      simp [columnAt_cons_eq_some_iff, or_left_comm]
    · rw [getLsbD_or_twoPow hn, hbits]
      simp [columnAt_cons_eq_some_iff]
  · obtain ⟨k, hk⟩ := List.getElem?_of_mem hletter
    obtain ⟨fields', hfields', hdrawn⟩ := hfields.exists_extendField hk (hc.joined hletter)
    -- the letter is no fixed bit
    have hzero : c ≠ '0' := fun h => absurd (h ▸ hletter) (by decide)
    have hone : c ≠ '1' := fun h => absurd (h ▸ hletter) (by decide)
    refine ⟨{ t with fields := fields' }, ?_, fun i => ?_, fun i => ?_, hdrawn⟩
    · rw [readColumn_of_letter hk, hfields']
      rfl
    · rw [hmask]
      simp [columnAt_cons_eq_some_iff, hzero, hone]
    · rw [hbits]
      simp [columnAt_cons_eq_some_iff, hone]

/-- A column that may not stand there is refused. -/
theorem Drawn.exists_readColumn_error (h : Drawn (n + 1) done t) (hc : ¬ Continues c done) :
    ∃ flaw, Template.readColumn n c t = .error flaw := by
  by_cases hmem : c ∈ '0' :: '1' :: letters
  · have hletter : c ∈ letters ∧ c ∈ done ∧ done.head? ≠ some c := by
      by_contra hnot
      refine hc ⟨hmem, fun hletter hdone => ?_⟩
      by_contra hapart
      exact hnot ⟨hletter, hdone, hapart⟩
    obtain ⟨hletter, hdone, hapart⟩ := hletter
    obtain ⟨k, hk⟩ := List.getElem?_of_mem hletter
    rw [readColumn_of_letter hk, h.fields.extendField_eq_error hk hdone hapart]
    exact ⟨_, rfl⟩
  · refine ⟨.character, ?_⟩
    unfold Template.readColumn
    split
    case h_6 => rfl
    all_goals exact absurd (by decide) hmem

/-- **The columns that are left are read if and only if all columns together can be drawn**, and the
template is the one that they draw. -/
theorem Drawn.readColumns (h : Drawn cs.length done t) (hlen : cs.length ≤ 32)
    (hdone : Drawable done) :
    ((∃ t', Template.readColumns cs t = .ok t') ↔ Drawable (cs.reverse ++ done)) ∧
      ∀ t', Template.readColumns cs t = .ok t' → Drawn 0 (cs.reverse ++ done) t' := by
  induction cs generalizing done t with
  | nil =>
    refine ⟨iff_of_true ⟨t, rfl⟩ hdone, fun t' ht' => ?_⟩
    cases ht'
    exact h
  | cons c cs ih =>
    have hsplit : (c :: cs).reverse ++ done = cs.reverse ++ (c :: done) := by simp
    rw [List.length_cons] at h hlen
    rw [hsplit, Template.readColumns]
    by_cases hc : Continues c done
    · obtain ⟨t₁, hread, hdrawn⟩ := h.exists_readColumn (by omega) hc
      rw [hread]
      exact ih hdrawn (by omega) (drawable_cons.2 ⟨hc, hdone⟩)
    · obtain ⟨flaw, hread⟩ := h.exists_readColumn_error hc
      rw [hread]
      constructor
      · refine iff_of_false (fun ⟨t', ht'⟩ => by cases ht') fun hall => hc ?_
        exact (drawable_cons.1 hall.of_append).1
      · intro t' ht'
        cases ht'

/-- A bit with a value is fixed. -/
theorem Drawn.bitsWithin (h : Drawn n done t) : t.BitsWithin := by
  apply BitVec.eq_of_getLsbD_eq
  intro i _
  rw [BitVec.getLsbD_and]
  cases hi : t.bits.getLsbD i with
  | false => rfl
  | true => rw [Bool.true_and, (h.mask_iff i).2 (.inr ((h.bits_iff i).1 hi))]

/-- A bit of a field is not fixed. -/
theorem Drawn.mask_eq_false (h : Drawn n done t) {f : Field} (hf : f ∈ t.fields) {i : Nat}
    (hi : f.Covers i) : t.mask.getLsbD i = false := by
  obtain ⟨a, hletter, ha⟩ := (h.fields.spans f hf).exists_letter
  have hcolumn : columnAt n done i = some a := (((h.fields.spans f hf).covers_iff i).1 hi).trans ha
  rw [Bool.eq_false_iff, Ne, h.mask_iff, hcolumn, Option.some_inj, Option.some_inj]
  rintro (rfl | rfl) <;> exact absurd hletter (by decide)

/-- The bit of every column is fixed or a field's. -/
theorem Drawn.fixed_or_covered (h : Drawn 0 done t) (hdone : Drawable done) {i : Nat}
    (hi : i < done.length) : t.mask.getLsbD i = true ∨ ∃ f ∈ t.fields, f.Covers i := by
  obtain ⟨a, ha, hcolumn⟩ := exists_columnAt hi
  rcases List.mem_cons.1 (hdone.mem a ha) with rfl | hrest
  · exact .inl ((h.mask_iff i).2 (.inl hcolumn))
  rcases List.mem_cons.1 hrest with rfl | hletter
  · exact .inl ((h.mask_iff i).2 (.inr hcolumn))
  · obtain ⟨k, hk⟩ := List.getElem?_of_mem hletter
    obtain ⟨f, hf, rfl⟩ := h.fields.drawn k a hk ha
    exact .inr ⟨f, hf, ((h.fields.spans f hf).covers_iff i).2 (hcolumn.trans hk.symm)⟩

end

/-! ### The order of the fields -/

/-- The fields by operand. -/
def ordered (fields : List Field) : List Field :=
  (List.range 3).filterMap fun k => fields.find? (·.operand = k)

section

variable {n k : Nat} {a : Char} {done : List Char} {f : Field} {fields fields' : List Field}

theorem orderFields_eq_ok_iff : Template.orderFields fields = .ok fields' ↔
    (ordered fields).map (·.operand) = List.range (ordered fields).length ∧
      fields' = ordered fields := by
  have hdef : Template.orderFields fields =
      if (ordered fields).map (·.operand) = List.range (ordered fields).length then
        .ok (ordered fields) else .error .order := rfl
  rw [hdef]
  split
  · next h => simp [h, eq_comm]
  · next h => simp [h]

/-- A search for a field succeeds if there is one. -/
theorem exists_mem_find {p : Field → Prop} [DecidablePred p] (hf : f ∈ fields) (hp : p f) :
    ∃ g ∈ fields, fields.find? (p ·) = some g ∧ p g := by
  obtain ⟨g, hg⟩ : ∃ g, fields.find? (p ·) = some g :=
    Option.isSome_iff_exists.1 (List.find?_isSome.2 ⟨f, hf, decide_eq_true hp⟩)
  have hpg : p g := by simpa using List.find?_some hg
  exact ⟨g, List.mem_of_find?_eq_some hg, hg, hpg⟩

/-- No field is lost when the fields are ordered. -/
theorem FieldsDrawn.mem_ordered (h : FieldsDrawn n done fields) :
    f ∈ ordered fields ↔ f ∈ fields := by
  rw [ordered, List.mem_filterMap]
  constructor
  · rintro ⟨k, -, hk⟩
    exact List.mem_of_find?_eq_some hk
  · intro hf
    obtain ⟨g, hmem, hfind, hoperand⟩ := exists_mem_find (p := (·.operand = f.operand)) hf rfl
    -- the field that is found has the same operand, so it is the same field
    have hsame : g = f := List.inj_on_of_nodup_map h.distinct hmem hf hoperand
    exact ⟨f.operand, List.mem_range.2 (h.spans f hf).operand_lt, hsame ▸ hfind⟩

/-- A letter that is drawn has its operand among the fields, and no other letter has. -/
theorem FieldsDrawn.find_operand (h : FieldsDrawn n done fields) (hk : letters[k]? = some a) :
    (fields.find? (·.operand = k)).map (·.operand) = if a ∈ done then some k else none := by
  cases hfind : fields.find? (·.operand = k) with
  | some f =>
    have hoperand : f.operand = k := by simpa using List.find?_some hfind
    have hspans : Spans n done f := h.spans f (List.mem_of_find?_eq_some hfind)
    have ha : a ∈ done := hspans.mem_of_letter (hoperand ▸ hk)
    rw [if_pos ha, Option.map_some, hoperand]
  | none =>
    have ha : a ∉ done := by
      intro ha
      obtain ⟨f, hf, hoperand⟩ := h.drawn k a hk ha
      simpa [hoperand] using List.find?_eq_none.1 hfind f hf
    rw [if_neg ha, Option.map_none]

theorem FieldsDrawn.operands_ordered (h : FieldsDrawn n done fields) :
    (ordered fields).map (·.operand) =
      (if 'f' ∈ done then [0] else []) ++ (if 's' ∈ done then [1] else []) ++
        (if 't' ∈ done then [2] else []) := by
  have hoption (p : Prop) [Decidable p] (k : Nat) :
      (if p then some k else none).toList = if p then [k] else [] := by
    split <;> rfl
  have hrange : List.range 3 = [0, 1, 2] := rfl
  rw [ordered, List.map_filterMap, hrange]
  simp only [List.filterMap_eq_flatMap_toList, List.flatMap_cons, List.flatMap_nil]
  rw [h.find_operand (k := 0) rfl, h.find_operand (k := 1) rfl, h.find_operand (k := 2) rfl,
    hoption, hoption, hoption]
  simp

/-- **The fields are in order if and only if no letter is left out** before one that is drawn. -/
theorem FieldsDrawn.exists_orderFields_iff (h : FieldsDrawn n done fields) :
    (∃ fields', Template.orderFields fields = .ok fields') ↔
      letters.filter (· ∈ done) ∈ [[], ['f'], ['f', 's'], ['f', 's', 't']] := by
  have hlength : (ordered fields).length = ((ordered fields).map (·.operand)).length :=
    (List.length_map _).symm
  simp only [orderFields_eq_ok_iff, exists_and_left, exists_eq, and_true]
  rw [hlength, h.operands_ordered]
  by_cases hf : 'f' ∈ done <;> by_cases hs : 's' ∈ done <;> by_cases ht : 't' ∈ done <;>
    simp [letters, hf, hs, ht, List.range_succ]

end

end Layout

namespace Template

open Layout

/-- The fixed bits and the fields share out the bits of a word, with a field for each operand in
turn. -/
structure Partitioned (t : Template) : Prop where
  bits_within : t.BitsWithin
  operand_eq : ∀ i : Fin t.fields.length, (t.fields.get i).operand = i
  width_pos : ∀ f ∈ t.fields, 1 ≤ f.width
  in_word : ∀ f ∈ t.fields, f.shift + f.width ≤ 32
  apart : t.fields.Pairwise Field.Apart
  free : ∀ f ∈ t.fields, ∀ i < 32, f.Covers i → t.mask.getLsbD i = false
  complete : t.Complete

/-- Operands can be packed into the fields if none of them is as wide as a word. -/
theorem Partitioned.wellFormed {t : Template} (h : t.Partitioned)
    (hwidth : ∀ f ∈ t.fields, f.width ≤ 31) : t.WellFormed :=
  ⟨h.bits_within, h.width_pos, hwidth, h.in_word, h.apart, h.free⟩

/-- The column that draws a bit: its value if it is fixed, otherwise the letter of the field that
has it. -/
def column? (t : Template) (i : Nat) : Option Char :=
  if t.mask.getLsbD i then some (if t.bits.getLsbD i then '1' else '0')
  else (t.fields.find? (·.Covers i)).bind fun f => letters[f.operand]?

section

variable {cs done : List Char} {t u : Template} {fields : List Field} {i : Nat}

/-- The columns are read back, whatever the order of the fields. -/
theorem column?_eq (h : Drawn 0 done u) (hdone : Drawable done)
    (hfields : ∀ f, f ∈ fields ↔ f ∈ u.fields) (hi : i < done.length) :
    column? { u with fields := fields } i = columnAt 0 done i := by
  rw [column?]
  by_cases hmask : u.mask.getLsbD i = true
  · rw [if_pos hmask]
    rcases (h.mask_iff i).1 hmask with hzero | hone
    · have hbits : u.bits.getLsbD i ≠ true := by
        rw [Ne, h.bits_iff, hzero]
        decide
      rw [if_neg hbits, hzero]
    · rw [if_pos ((h.bits_iff i).2 hone), hone]
  · obtain ⟨f, hf, hcovers⟩ := (h.fixed_or_covered hdone hi).resolve_left hmask
    obtain ⟨g, hmem, hfind, hgcovers⟩ :=
      exists_mem_find (p := (·.Covers i)) ((hfields f).2 hf) hcovers
    -- whichever field is found has the letter of the column
    have hg : Spans 0 done g := h.fields.spans g ((hfields g).1 hmem)
    rw [if_neg hmask, hfind, Option.bind_some, (hg.covers_iff i).1 hgcovers]

/-- **The template that the columns of a word draw shares out its bits.** -/
theorem partitioned_of_drawn (h : Drawn 0 done u) (hdone : Drawable done) (hlen : done.length = 32)
    (hoperands : (ordered u.fields).map (·.operand) = List.range (ordered u.fields).length) :
    Partitioned { u with fields := ordered u.fields } := by
  have hspans : ∀ f ∈ ordered u.fields, Spans 0 done f :=
    fun f hf => h.fields.spans f (h.fields.mem_ordered.1 hf)
  constructor
  · exact h.bitsWithin
  · intro i
    have hget := congrArg (·[i.val]?) hoperands
    simpa using hget
  · exact fun f hf => (hspans f hf).width_pos
  · intro f hf
    have hle := (hspans f hf).le_length
    omega
  · have hdistinct : ((ordered u.fields).map (·.operand)).Nodup := hoperands ▸ List.nodup_range
    refine List.Pairwise.imp_of_mem ?_ (List.pairwise_map.1 hdistinct)
    exact fun hf hg hne => (hspans _ hf).apart (hspans _ hg) hne
  · exact fun f hf i _ hi => h.mask_eq_false (h.fields.mem_ordered.1 hf) hi
  · intro i hi
    rcases h.fixed_or_covered hdone (hlen ▸ hi) with hmask | ⟨f, hf, hcovers⟩
    · exact .inl hmask
    · exact .inr ⟨f, h.fields.mem_ordered.2 hf, hcovers⟩

theorem ofColumns_eq_ok_iff : ofColumns cs = .ok t ↔ cs.length = 32 ∧
    ∃ u, readColumns cs ⟨0, 0, []⟩ = .ok u ∧
      ∃ fields, orderFields u.fields = .ok fields ∧ t = { u with fields := fields } := by
  unfold ofColumns
  split
  · next hlen =>
    rw [bind_eq_ok, and_iff_right hlen]
    refine exists_congr fun u => and_congr_right fun _ => ?_
    rw [bind_eq_ok]
    refine exists_congr fun fields => and_congr_right fun _ => ?_
    exact ⟨fun h => (Except.ok.inj h).symm, fun h => h ▸ rfl⟩
  · next hlen => simp [hlen]

/-- What the columns of a word are read as. -/
theorem drawn_of_readColumns (hlen : cs.length = 32) (h : readColumns cs ⟨0, 0, []⟩ = .ok u) :
    Drawn 0 cs.reverse u ∧ Drawable cs.reverse := by
  obtain ⟨hiff, hread⟩ := (drawn_nil cs.length).readColumns (Nat.le_of_eq hlen) drawable_nil
  rw [List.append_nil] at hiff hread
  exact ⟨hread u h, hiff.1 ⟨u, h⟩⟩

/-- **The rows of columns that are read are those that draw a template.** -/
theorem exists_ofColumns_iff : (∃ t, ofColumns cs = .ok t) ↔ WellDrawn cs := by
  have hletters : letters.filter (· ∈ cs.reverse) = letters.filter (· ∈ cs) := by
    simp only [List.mem_reverse]
  constructor
  · rintro ⟨t, ht⟩
    obtain ⟨hlen, u, hread, fields, hfields, -⟩ := ofColumns_eq_ok_iff.1 ht
    obtain ⟨hdrawn, hdone⟩ := drawn_of_readColumns hlen hread
    have horder := hdrawn.fields.exists_orderFields_iff.1 ⟨fields, hfields⟩
    rw [hletters] at horder
    exact ⟨drawable_reverse_iff.1 hdone, hlen, horder⟩
  · rintro ⟨hdrawable, hlen, horder⟩
    obtain ⟨hiff, -⟩ := (drawn_nil cs.length).readColumns (Nat.le_of_eq hlen) drawable_nil
    rw [List.append_nil, drawable_reverse_iff] at hiff
    obtain ⟨u, hread⟩ := hiff.2 hdrawable
    obtain ⟨hdrawn, -⟩ := drawn_of_readColumns hlen hread
    rw [← hletters] at horder
    obtain ⟨fields, hfields⟩ := hdrawn.fields.exists_orderFields_iff.2 horder
    exact ⟨_, ofColumns_eq_ok_iff.2 ⟨hlen, u, hread, fields, hfields, rfl⟩⟩

/-- **The template that columns are read as shares out the bits of a word, and the columns can be
read back from it.** -/
theorem partitioned_of_ofColumns (h : ofColumns cs = .ok t) :
    t.Partitioned ∧ (List.range 32).reverse.map t.column? = cs.map some := by
  obtain ⟨hlen, u, hread, fields, hfields, rfl⟩ := ofColumns_eq_ok_iff.1 h
  obtain ⟨hdrawn, hdone⟩ := drawn_of_readColumns hlen hread
  obtain ⟨hoperands, rfl⟩ := orderFields_eq_ok_iff.1 hfields
  have hlen' : cs.reverse.length = 32 := by rw [List.length_reverse, hlen]
  refine ⟨partitioned_of_drawn hdrawn hdone hlen' hoperands, ?_⟩
  have hcolumns : (List.range 32).map (column? { u with fields := ordered u.fields }) =
      cs.reverse.map some := by
    refine List.ext_getElem (by simp [hlen]) fun i hi _ => ?_
    have hi' : i < cs.reverse.length := by simpa [hlen] using hi
    rw [List.getElem_map, List.getElem_range, List.getElem_map,
      column?_eq hdrawn hdone (fun _ => hdrawn.fields.mem_ordered) hi']
    exact List.getElem?_eq_getElem hi'
  rw [List.map_reverse, hcolumns, ← List.map_reverse, List.reverse_reverse]

theorem partitioned_of_ofLayout {s : String} (h : ofLayout s = .ok t) : t.Partitioned := by
  obtain ⟨hpartitioned, -⟩ := partitioned_of_ofColumns h
  exact hpartitioned

/-- **Layouts are read exactly.** A layout is read if and only if, without its blanks, it has 32
columns, each of them `0`, `1`, `f`, `s` or `t`, with the columns of each letter side by side and
the letters `f`, `s` and `t` drawn none without those before it. The template that is read shares
out the bits of a word among its fixed bits and its fields, one for each operand in turn, and the
columns can be read back from it. -/
theorem ofLayout_exact (s : String) :
    ((∃ t, ofLayout s = .ok t) ↔ WellDrawn (columns s)) ∧
    ∀ t, ofLayout s = .ok t →
      t.Partitioned ∧ (List.range 32).reverse.map t.column? = (columns s).map some :=
  ⟨exists_ofColumns_iff, fun _ => partitioned_of_ofColumns⟩

/-- A layout with blanks of three kinds, with fixed bits inside and between the groups, and with
the second operand drawn above the first. -/
theorem ofLayout_exact_mixed :
    let s := "10ss ss1f\tffff fff0\u00a00000 1111 tttt ttt1"
    let t : Template := ⟨0xc201ff01, 0x82000f01, [⟨0, 17, 8⟩, ⟨1, 26, 4⟩, ⟨2, 1, 7⟩]⟩
    WellDrawn (columns s) ∧ ofLayout s = .ok t ∧ t.Partitioned ∧
      (List.range 32).reverse.map t.column? = (columns s).map some := by
  intro s t
  have hread : ofLayout s = .ok t := by decide +kernel
  obtain ⟨haccepts, hfaithful⟩ := ofLayout_exact s
  obtain ⟨hpartitioned, hcolumns⟩ := hfaithful t hread
  exact ⟨haccepts.1 ⟨t, hread⟩, hread, hpartitioned, hcolumns⟩

end

end Template

end TetrisMachine
