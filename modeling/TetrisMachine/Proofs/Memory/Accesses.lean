import Mathlib.Data.List.Nodup
import TetrisMachine.Memory

/-!
# Accesses to memory

A segment of memory is a map from its addresses to words. It answers a load with the word
that was stored last at the address, or with zero, and it refuses accesses elsewhere without a
change. Addresses are judged by themselves and not by their distance from the base, so with a
base that is not aligned the words of a segment still lie at aligned addresses, as many as it
has.

* `Mapped`: the addresses of a segment.
* `slot_inj`, `mapped_slotAddress`: its addresses in order, one for each word.
* `words_setCell`: a segment is an array of its words.
* `Holds`, `Holds.accessed`: what accesses keep.
* `Behaves`, `Holds.behaves`: what a segment answers after any accesses.
-/

namespace TetrisMachine.Memory

variable {base : Word} {n k : Nat} {m : Memory} {a b w : Word} {stored : List (Word × Word)}

/-! ### Addresses -/

/-- The addresses of so many words from a base on. -/
def Mapped (base : Word) (n : Nat) (a : Word) : Prop :=
  a.toNat % 4 = 0 ∧ base.toNat ≤ a.toNat ∧ a.toNat < base.toNat + 4 * n

instance (base : Word) (n : Nat) (a : Word) : Decidable (Mapped base n a) :=
  inferInstanceAs (Decidable (_ ∧ _ ∧ _))

/-- The place of the word at an address in the segment. -/
def slot (base a : Word) : Nat :=
  (a.toNat - base.toNat) / 4

/-- The address of the word in a place. The first address is the base, rounded up. -/
def slotAddress (base : Word) (k : Nat) : Word :=
  BitVec.ofNat 32 ((base.toNat + 3) / 4 * 4 + 4 * k)

/-- An aligned address from the base on is in the segment if its place is. -/
theorem mapped_iff_slot_lt :
    Mapped base n a ↔ a.toNat % 4 = 0 ∧ base.toNat ≤ a.toNat ∧ slot base a < n := by
  unfold Mapped slot
  omega

/-- **No two addresses share a place.** Two that are aligned and not the same are 4 apart,
wherever the base is. -/
theorem slot_inj (ha : Mapped base n a) (hb : Mapped base n b) (h : slot base a = slot base b) :
    a = b := by
  obtain ⟨haligned, hle, -⟩ := ha
  obtain ⟨haligned', hle', -⟩ := hb
  unfold slot at h
  apply BitVec.eq_of_toNat_eq
  omega

/-- **No place is left out**, if the segment ends within the address space. -/
theorem mapped_slotAddress (hfits : base.toNat + 4 * n ≤ 0x100000000) (hk : k < n) :
    Mapped base n (slotAddress base k) ∧ slot base (slotAddress base k) = k := by
  have haddress : (slotAddress base k).toNat = (base.toNat + 3) / 4 * 4 + 4 * k := by
    rw [slotAddress, BitVec.toNat_ofNat]
    apply Nat.mod_eq_of_lt
    omega
  unfold Mapped slot
  rw [haddress]
  omega

theorem eq_slotAddress_iff (hfits : base.toNat + 4 * n ≤ 0x100000000) (ha : Mapped base n a)
    (hk : k < n) : a = slotAddress base k ↔ slot base a = k := by
  obtain ⟨hmapped, hslot⟩ := mapped_slotAddress hfits hk
  constructor
  · rintro rfl
    exact hslot
  · intro h
    exact slot_inj ha hmapped (h.trans hslot.symm)

/-- **As many addresses as words**, in the order of their places. -/
theorem exists_addresses (hfits : base.toNat + 4 * n ≤ 0x100000000) :
    ∃ addresses : List Word, addresses.Nodup ∧ addresses.length = n ∧
      ∀ a, a ∈ addresses ↔ Mapped base n a := by
  refine ⟨(List.range n).map (slotAddress base), ?_, ?_, fun a => ?_⟩
  · refine List.Nodup.map_on (fun j hj k hk h => ?_) List.nodup_range
    rw [← (mapped_slotAddress hfits (List.mem_range.1 hj)).2, h,
      (mapped_slotAddress hfits (List.mem_range.1 hk)).2]
  · rw [List.length_map, List.length_range]
  · rw [List.mem_map]
    constructor
    · rintro ⟨k, hk, rfl⟩
      exact (mapped_slotAddress hfits (List.mem_range.1 hk)).1
    · intro ha
      obtain ⟨-, -, hlt⟩ := mapped_iff_slot_lt.1 ha
      exact ⟨slot base a, List.mem_range.2 hlt, ((eq_slotAddress_iff hfits ha hlt).2 rfl).symm⟩

theorem fault?_eq_none_iff_mapped : m.fault? a = none ↔ Mapped m.base m.length a :=
  fault?_eq_none_iff

theorem fault?_eq_misaligned_iff : m.fault? a = some .misaligned ↔ a.toNat % 4 ≠ 0 := by
  unfold fault?
  by_cases h : a.toNat % 4 ≠ 0
  · rw [if_pos h]
    exact iff_of_true rfl h
  · rw [if_neg h]
    split <;> simp [h]

theorem fault?_eq_unmapped_iff :
    m.fault? a = some .unmapped ↔ a.toNat % 4 = 0 ∧ ¬ Mapped m.base m.length a := by
  rw [← fault?_eq_none_iff_mapped]
  cases hf : m.fault? a with
  | none => simp
  | some fault =>
    cases fault with
    | misaligned => simp [fault?_eq_misaligned_iff.1 hf]
    | unmapped =>
      have hne : ¬ a.toNat % 4 ≠ 0 := fun h => by
        rw [fault?_eq_misaligned_iff.2 h] at hf
        cases hf
      simpa using hne

theorem load_eq_error_iff {fault : AddressFault} :
    m.load a = .error fault ↔ m.fault? a = some fault := by
  unfold load
  cases m.fault? a <;> simp

theorem store_eq_error_iff {fault : AddressFault} :
    m.store a w = .error fault ↔ m.fault? a = some fault := by
  unfold store
  cases m.fault? a <;> simp

theorem store_eq_ok_iff {m' : Memory} :
    m.store a w = .ok m' ↔ m.fault? a = none ∧ m' = m.setCell a w := by
  unfold store
  cases m.fault? a <;> simp [eq_comm]

/-! ### The segment as an array -/

/-- The words of the segment, place by place. -/
def words (m : Memory) : List Word :=
  (List.range m.length).map fun k => m.cell (slotAddress m.base k)

theorem length_words (m : Memory) : m.words.length = m.length := by
  rw [words, List.length_map, List.length_range]

theorem getElem_words (hk : k < m.words.length) : m.words[k] = m.cell (slotAddress m.base k) := by
  simp only [words, List.getElem_map, List.getElem_range]

/-- A word is read in its place. -/
theorem getElem?_words_slot (hfits : m.base.toNat + 4 * m.length ≤ 0x100000000)
    (ha : Mapped m.base m.length a) : m.words[slot m.base a]? = some (m.cell a) := by
  obtain ⟨-, -, hlt⟩ := mapped_iff_slot_lt.1 ha
  have hlt' : slot m.base a < m.words.length := by rwa [length_words]
  rw [List.getElem?_eq_getElem hlt', getElem_words, ← (eq_slotAddress_iff hfits ha hlt).2 rfl]

/-- **A word is set in its place**, and nothing else is. -/
theorem words_setCell (hfits : m.base.toNat + 4 * m.length ≤ 0x100000000)
    (ha : Mapped m.base m.length a) (w : Word) :
    (m.setCell a w).words = m.words.set (slot m.base a) w := by
  refine List.ext_getElem ?_ fun k hk _ => ?_
  · rw [List.length_set, length_words, length_words]
    rfl
  · have hlt : k < m.length := by
      rw [length_words] at hk
      exact hk
    rw [getElem_words, List.getElem_set, getElem_words, cell_setCell]
    change (if a = slotAddress m.base k then w else m.cell (slotAddress m.base k)) = _
    by_cases hplace : slot m.base a = k
    · rw [if_pos hplace, if_pos ((eq_slotAddress_iff hfits ha hlt).2 hplace)]
    · rw [if_neg hplace, if_neg (mt (eq_slotAddress_iff hfits ha hlt).1 hplace)]

/-! ### Accesses in sequence -/

/-- A load or a store. -/
inductive Access where
  | load (address : Word)
  | store (address w : Word)
deriving DecidableEq, Repr

namespace Access

def address : Access → Word
  | load a | store a _ => a

/-- The memory after an access. -/
def after (m : Memory) : Access → Memory
  | load _ => m
  | store a w =>
    match m.store a w with
    | .ok m' => m'
    | .error _ => m

/-- What an access stores, if it is a store that succeeds. -/
def stored? (m : Memory) : Access → Option (Word × Word)
  | load _ => none
  | store a w =>
    match m.store a w with
    | .ok _ => some (a, w)
    | .error _ => none

end Access

/-- The memory after accesses in sequence. -/
def accessed (m : Memory) (accesses : List Access) : Memory :=
  accesses.foldl Access.after m

/-- What the stores that succeed store, newest first. -/
def stores (m : Memory) : List Access → List (Word × Word)
  | [] => []
  | x :: accesses => stores (x.after m) accesses ++ (x.stored? m).toList

/-- The memory is a segment that holds the words stored, each at its address unless another
word was stored there later, and zeros. -/
structure Holds (base : Word) (n : Nat) (stored : List (Word × Word)) (m : Memory) : Prop where
  base_eq : m.base = base
  length_eq : m.length = n
  fits : base.toNat + 4 * n ≤ 0x100000000
  cell_eq : ∀ a, m.cell a = (stored.lookup a).getD 0
  /-- The cells that are kept are those that do not hold zero. -/
  mem_nonzero_iff : ∀ a w, (a, w) ∈ m.nonzero ↔ w ≠ 0 ∧ m.cell a = w

/-- What a segment answers, if these words have been stored in it, newest first. -/
structure Behaves (base : Word) (n : Nat) (stored : List (Word × Word)) (m : Memory) : Prop where
  loads : ∀ a, (∃ w, m.load a = .ok w) ↔ Mapped base n a
  stores : ∀ a w, (∃ m', m.store a w = .ok m') ↔ Mapped base n a
  /-- An address that is not aligned is refused for that, in the segment and out of it. -/
  misaligned : ∀ a w, (m.load a = .error .misaligned ↔ a.toNat % 4 ≠ 0) ∧
    (m.store a w = .error .misaligned ↔ a.toNat % 4 ≠ 0)
  unmapped : ∀ a w, (m.load a = .error .unmapped ↔ a.toNat % 4 = 0 ∧ ¬ Mapped base n a) ∧
    (m.store a w = .error .unmapped ↔ a.toNat % 4 = 0 ∧ ¬ Mapped base n a)
  addresses : ∃ addresses : List Word, addresses.Nodup ∧ addresses.length = n ∧
    ∀ a, a ∈ addresses ↔ Mapped base n a
  /-- Each place among the words is that of one address. -/
  places : ∀ k < n, ∃! a, Mapped base n a ∧ slot base a = k
  /-- A word is read and set in the place of its address. -/
  array : ∀ a, Mapped base n a → m.words[slot base a]? = some (m.cell a) ∧
    ∀ w, (m.setCell a w).words = m.words.set (slot base a) w
  /-- The cells that are kept are those that do not hold zero. -/
  nonzero : ∀ a w, (a, w) ∈ m.nonzero ↔ w ≠ 0 ∧ m.cell a = w
  /-- A load answers the word that was stored last. -/
  latest : ∀ a w, m.load a = .ok w → w = (stored.lookup a).getD 0
  /-- A store changes what its address answers and nothing else. -/
  stored : ∀ a w m', m.store a w = .ok m' → ∀ b, m'.load b = if a = b then .ok w else m.load b
  /-- An access that fails changes nothing. -/
  refused : ∀ x : Access, ¬ Mapped base n x.address → x.after m = m

/-- A segment of zeros is cut at the end of the address space. -/
theorem holds_zero (base size : Word) :
    Holds base (min size.toNat (0x100000000 - base.toNat) / 4) [] (zero base size) where
  base_eq := rfl
  length_eq := rfl
  fits := by
    have hlt := base.isLt
    omega
  cell_eq a := cell_zero base size a
  mem_nonzero_iff a w := by
    rw [nonzero_zero, cell_zero]
    refine iff_of_false List.not_mem_nil ?_
    rintro ⟨hne, heq⟩
    exact hne heq.symm

namespace Holds

/-- A word that is stored hides what was stored before at its address. -/
theorem setCell (h : Holds base n stored m) (a w : Word) :
    Holds base n ((a, w) :: stored) (m.setCell a w) where
  base_eq := h.base_eq
  length_eq := h.length_eq
  fits := h.fits
  cell_eq b := by
    rw [cell_setCell, List.lookup_cons, h.cell_eq]
    by_cases hab : a = b
    · simp [hab]
    · rw [if_neg hab, beq_false_of_ne (Ne.symm hab)]
  mem_nonzero_iff b v := by
    rw [mem_nonzero_setCell, cell_setCell]
    by_cases hab : a = b
    · rw [if_pos hab, if_pos hab, eq_comm (a := w)]
      refine and_congr_left ?_
      rintro rfl
      rfl
    · rw [if_neg hab, if_neg hab]
      exact h.mem_nonzero_iff b v

/-- **What an access stores is held.** -/
theorem access (h : Holds base n stored m) (x : Access) :
    Holds base n ((x.stored? m).toList ++ stored) (x.after m) := by
  cases x with
  | load a => exact h
  | store a w =>
    rw [Access.stored?, Access.after]
    cases hs : m.store a w with
    | error fault => exact h
    | ok m' =>
      obtain ⟨-, rfl⟩ := store_eq_ok_iff.1 hs
      exact h.setCell a w

/-- **What accesses store is held**, and nothing else. -/
theorem accessed (h : Holds base n stored m) (accesses : List Access) :
    Holds base n (m.stores accesses ++ stored) (m.accessed accesses) := by
  induction accesses generalizing m stored with
  | nil => exact h
  | cons x accesses ih =>
    rw [stores, List.append_assoc]
    exact ih (h.access x)

theorem mapped_iff (h : Holds base n stored m) : m.fault? a = none ↔ Mapped base n a := by
  rw [fault?_eq_none_iff_mapped, h.base_eq, h.length_eq]

theorem unmapped_iff (h : Holds base n stored m) :
    m.fault? a = some .unmapped ↔ a.toNat % 4 = 0 ∧ ¬ Mapped base n a := by
  rw [fault?_eq_unmapped_iff, h.base_eq, h.length_eq]

/-- **A segment behaves as a map.** -/
theorem behaves (h : Holds base n stored m) : Behaves base n stored m where
  loads a := by
    rw [← h.mapped_iff]
    simp [load_eq_ok_iff]
  stores a w := by
    rw [← h.mapped_iff]
    simp [store_eq_ok_iff]
  misaligned a w := by
    rw [load_eq_error_iff, store_eq_error_iff, fault?_eq_misaligned_iff]
    exact ⟨Iff.rfl, Iff.rfl⟩
  unmapped a w := by
    rw [load_eq_error_iff, store_eq_error_iff, h.unmapped_iff]
    exact ⟨Iff.rfl, Iff.rfl⟩
  addresses := exists_addresses h.fits
  places k hk := ⟨slotAddress base k, mapped_slotAddress h.fits hk,
    fun _ ⟨ha, hslot⟩ => (eq_slotAddress_iff h.fits ha hk).2 hslot⟩
  array a ha := by
    obtain ⟨rfl, rfl, hfits, -, -⟩ := h
    exact ⟨getElem?_words_slot hfits ha, words_setCell hfits ha⟩
  nonzero := h.mem_nonzero_iff
  latest a w hw := by
    rw [← (load_eq_ok_iff.1 hw).2]
    exact h.cell_eq a
  stored _ _ _ hstore := load_store hstore
  refused x hx := by
    cases x with
    | load a => rfl
    | store a w =>
      have hne : m.fault? a ≠ none := fun hnone => hx (h.mapped_iff.1 hnone)
      obtain ⟨fault, hf⟩ := Option.ne_none_iff_exists'.1 hne
      rw [Access.after, store_eq_error_iff.2 hf]

end Holds

end TetrisMachine.Memory
