import TetrisMachine.Encoding.Layout

/-!
# Columns of a layout

A layout draws a template if it has 32 columns, each of them a fixed bit or the letter of an
operand, if the columns of each letter stand side by side, and if no letter is left out before one
that is drawn. Columns are read from the highest bit down, so a row of columns is judged one column
at a time: a letter may follow if it is new or is the letter of the column just read.

* `Layout.WellDrawn`: the rows of columns that draw a template.
* `Layout.consecutive_cons`: when characters stay side by side.
* `Layout.drawable_cons`: which columns may follow.
* `Layout.columnAt`: the column of a bit, among those that were read.
-/

namespace TetrisMachine

namespace Layout

/-- The letters of the operands, in their order. -/
def letters : List Char := ['f', 's', 't']

/-- The columns of a layout: its characters but the blanks. -/
def columns (s : String) : List Char :=
  s.toList.filter (!Text.isBlank ·)

/-- All the places of a character are side by side. -/
def Consecutive (a : Char) (cs : List Char) : Prop :=
  ∃ before n after, cs = before ++ List.replicate n a ++ after ∧ a ∉ before ∧ a ∉ after

/-- Every column fixes a bit or belongs to an operand, and the columns of an operand are side by
side. -/
structure Drawable (cs : List Char) : Prop where
  mem : ∀ c ∈ cs, c ∈ '0' :: '1' :: letters
  consecutive : ∀ a ∈ letters, Consecutive a cs

/-- The columns draw a template: they are 32, and the letters among them are the first ones. -/
structure WellDrawn (cs : List Char) : Prop extends Drawable cs where
  length : cs.length = 32
  inOrder : letters.filter (· ∈ cs) ∈ [[], ['f'], ['f', 's'], ['f', 's', 't']]

/-! ### Columns side by side -/

section

variable {a c : Char} {cs done : List Char}

theorem Consecutive.reverse (h : Consecutive a cs) : Consecutive a cs.reverse := by
  obtain ⟨before, n, after, rfl, hbefore, hafter⟩ := h
  refine ⟨after.reverse, n, before.reverse, ?_, ?_, ?_⟩
  · rw [List.reverse_append, List.reverse_append, List.reverse_replicate, List.append_assoc]
  · rwa [List.mem_reverse]
  · rwa [List.mem_reverse]

/-- A character in front keeps the places side by side if it is another one, if it is the first of
its kind, or if it stands next to its kind. -/
theorem consecutive_cons : Consecutive a (c :: cs) ↔
    Consecutive a cs ∧ (c = a → a ∈ cs → cs.head? = some a) := by
  constructor
  · rintro ⟨before, n, after, hcs, hbefore, hafter⟩
    cases before with
    | cons b before =>
      rw [List.cons_append, List.cons_append, List.cons_eq_cons] at hcs
      obtain ⟨rfl, rfl⟩ := hcs
      rw [List.mem_cons, not_or] at hbefore
      exact ⟨⟨before, n, after, rfl, hbefore.2, hafter⟩, fun hc => absurd hc.symm hbefore.1⟩
    | nil =>
      cases n with
      | zero =>
        rw [List.replicate_zero, List.nil_append, List.nil_append] at hcs
        rw [← hcs, List.mem_cons, not_or] at hafter
        exact ⟨⟨[], 0, cs, rfl, List.not_mem_nil, hafter.2⟩, fun hc => absurd hc.symm hafter.1⟩
      | succ n =>
        rw [List.nil_append, List.replicate_succ, List.cons_append, List.cons_eq_cons] at hcs
        obtain ⟨rfl, rfl⟩ := hcs
        refine ⟨⟨[], n, after, rfl, hbefore, hafter⟩, fun _ hmem => ?_⟩
        -- the character stands in the run, which is not empty then
        cases n with
        | zero => exact absurd hmem hafter
        | succ n => rfl
  · rintro ⟨⟨before, n, after, rfl, hbefore, hafter⟩, hjoined⟩
    by_cases hc : c = a
    · subst hc
      cases before with
      | nil => exact ⟨[], n + 1, after, rfl, List.not_mem_nil, hafter⟩
      | cons b before =>
        have hfresh : c ∉ b :: before ++ List.replicate n c ++ after := by
          intro hmem
          have hb : b = c := Option.some.inj (hjoined rfl hmem)
          exact hbefore (hb ▸ List.mem_cons_self)
        exact ⟨[], 1, _, rfl, List.not_mem_nil, hfresh⟩
    · refine ⟨c :: before, n, after, rfl, ?_, hafter⟩
      rw [List.mem_cons, not_or]
      exact ⟨fun ha => hc ha.symm, hbefore⟩

/-- A column may stand below those that were read, of which the lowest comes first. -/
structure Continues (c : Char) (done : List Char) : Prop where
  mem : c ∈ '0' :: '1' :: letters
  joined : c ∈ letters → c ∈ done → done.head? = some c

theorem drawable_nil : Drawable [] :=
  ⟨nofun, fun _ _ => ⟨[], 0, [], rfl, List.not_mem_nil, List.not_mem_nil⟩⟩

theorem drawable_cons : Drawable (c :: done) ↔ Continues c done ∧ Drawable done := by
  constructor
  · rintro ⟨hmem, hconsecutive⟩
    obtain ⟨hc, hdone⟩ := List.forall_mem_cons.1 hmem
    refine ⟨⟨hc, fun hletter => ?_⟩, hdone, fun a ha => ?_⟩
    · exact (consecutive_cons.1 (hconsecutive c hletter)).2 rfl
    · exact (consecutive_cons.1 (hconsecutive a ha)).1
  · rintro ⟨⟨hc, hjoined⟩, hdone, hconsecutive⟩
    refine ⟨List.forall_mem_cons.2 ⟨hc, hdone⟩, fun a ha => ?_⟩
    refine consecutive_cons.2 ⟨hconsecutive a ha, ?_⟩
    rintro rfl
    exact hjoined ha

theorem Drawable.of_append (h : Drawable (cs ++ done)) : Drawable done := by
  induction cs with
  | nil => exact h
  | cons c cs ih => exact ih (drawable_cons.1 h).2

theorem Drawable.reverse (h : Drawable cs) : Drawable cs.reverse :=
  ⟨fun c hc => h.mem c (List.mem_reverse.1 hc), fun a ha => (h.consecutive a ha).reverse⟩

theorem drawable_reverse_iff : Drawable cs.reverse ↔ Drawable cs :=
  ⟨fun h => by simpa using h.reverse, Drawable.reverse⟩

end

/-! ### The column of a bit -/

/-- The column of a bit, among columns that go down to bit `n` and of which the lowest comes
first. -/
def columnAt (n : Nat) (done : List Char) (i : Nat) : Option Char :=
  if i < n then none else done[i - n]?

section

variable {n i : Nat} {a c : Char} {done : List Char}

theorem columnAt_of_lt (h : i < n) : columnAt n done i = none :=
  if_pos h

theorem le_of_columnAt (h : columnAt n done i = some a) : n ≤ i := by
  rcases Nat.lt_or_ge i n with hlt | hge
  · rw [columnAt_of_lt hlt] at h
    cases h
  · exact hge

theorem lt_of_columnAt (h : columnAt n done i = some a) : i < n + done.length := by
  have hle : n ≤ i := le_of_columnAt h
  rw [columnAt, if_neg (by omega)] at h
  have hlt : i - n < done.length := (List.getElem?_eq_some_iff.1 h).1
  omega

theorem columnAt_cons :
    columnAt n (c :: done) i = if i = n then some c else columnAt (n + 1) done i := by
  unfold columnAt
  rcases Nat.lt_trichotomy i n with hlt | rfl | hgt
  · rw [if_pos hlt, if_neg (by omega), if_pos (by omega)]
  · rw [if_neg (by omega), if_pos rfl, Nat.sub_self, List.getElem?_cons_zero]
  · obtain ⟨j, rfl⟩ : ∃ j, i = n + 1 + j := ⟨i - (n + 1), by omega⟩
    rw [if_neg (by omega), if_neg (by omega), if_neg (by omega), Nat.add_sub_cancel_left,
      show n + 1 + j - n = j + 1 by omega, List.getElem?_cons_succ]

theorem columnAt_cons_eq_some_iff : columnAt n (c :: done) i = some a ↔
    (i = n ∧ c = a) ∨ columnAt (n + 1) done i = some a := by
  rw [columnAt_cons]
  by_cases hi : i = n
  · rw [if_pos hi, columnAt_of_lt (by omega)]
    simp [hi]
  · rw [if_neg hi]
    simp [hi]

/-- The lowest column is that of bit `n`. -/
theorem columnAt_self : columnAt n done n = done.head? := by
  rw [columnAt, if_neg (Nat.lt_irrefl n), Nat.sub_self, List.head?_eq_getElem?]

theorem mem_of_columnAt (h : columnAt n done i = some a) : a ∈ done := by
  rw [columnAt, if_neg (Nat.not_lt.2 (le_of_columnAt h))] at h
  exact List.mem_of_getElem? h

theorem exists_columnAt (h : i < done.length) : ∃ a ∈ done, columnAt 0 done i = some a := by
  refine ⟨done[i], List.getElem_mem h, ?_⟩
  rw [columnAt, if_neg (Nat.not_lt_zero i), Nat.sub_zero, List.getElem?_eq_getElem h]

theorem letters_inj {k k' : Nat} (h : letters[k]? = some a) (h' : letters[k']? = some a) :
    k = k' :=
  (List.getElem?_inj (List.getElem?_eq_some_iff.1 h).1 (by decide)).1 (h.trans h'.symm)

end

end Layout

end TetrisMachine
