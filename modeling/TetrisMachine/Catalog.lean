import TetrisMachine.Encoding.Key
import TetrisMachine.Encoding.Layout

/-!
# The catalog

An instruction set as a list of descriptors, checked when it is built: no two
templates overlap and no two keys are equal. Words are decoded by key.

* `findClash_eq_none_iff`: a list without a clash is pairwise free of clashes.
* `build_eq_ok_iff`: what is checked when a catalog is built.
* `lookup_ofDescriptors`: looking up a key is a search for the first descriptor
  that has it.
-/

namespace TetrisMachine

/-- A sequence of two steps succeeds if both do. -/
theorem bind_eq_ok {ε α β : Type} {x : Except ε α} {f : α → Except ε β} {b : β} :
    (x >>= f) = .ok b ↔ ∃ a, x = .ok a ∧ f a = .ok b := by
  cases x <;> simp [bind, Except.bind]

/-- What is known about one instruction. -/
structure Descriptor where
  mnemonic : Mnemonic
  format : OperandFormat
  template : Template
deriving DecidableEq, Repr

/-- The key of the instruction. -/
def Descriptor.key (d : Descriptor) : Key :=
  d.template.key d.format

/-- Reads the layout of a mnemonic. -/
def Descriptor.ofMnemonic (m : Mnemonic) : Except EncodingError Descriptor :=
  match Template.ofLayout m.layout with
  | .ok t => .ok ⟨m, m.format, t⟩
  | .error flaw => .error (.malformedTemplate m flaw.message)

/-- An instruction with its operands pulled out: a key and words of any number. -/
structure Instruction where
  key : Key
  operands : List Word
deriving DecidableEq, Repr

/-- The first entry that clashes with a later one, and the first such later one. -/
def findClash {α : Type} (clash : α → α → Bool) : List α → Option (α × α)
  | [] => none
  | a :: as =>
    match as.find? (clash a) with
    | some b => some (a, b)
    | none => findClash clash as

theorem findClash_eq_none_iff {α : Type} {clash : α → α → Bool} {as : List α} :
    findClash clash as = none ↔ as.Pairwise (fun a b => clash a b = false) := by
  induction as with
  | nil => simp [findClash]
  | cons a as ih =>
    rw [findClash, List.pairwise_cons, ← ih]
    cases h : as.find? (clash a) with
    | none =>
      have h' : ∀ b ∈ as, clash a b = false := by simpa using h
      simp only [iff_and_self]
      exact fun _ => h'
    | some b =>
      have hb := List.find?_some h
      have hm := List.mem_of_find?_eq_some h
      simp only [reduceCtorEq, false_iff, not_and]
      intro hf
      simp [hf b hm] at hb

/-- An instruction set. -/
structure Catalog where
  /-- The descriptors, each under its key. -/
  entries : List (Key × Descriptor)
deriving DecidableEq, Repr

namespace Catalog

/-- The instruction set of some descriptors. -/
def ofDescriptors (ds : List Descriptor) : Catalog :=
  ⟨ds.map fun d => (d.key, d)⟩

/-- Refuses descriptors two of which clash in the sense given. -/
def reject (clash : Descriptor → Descriptor → Bool) (ds : List Descriptor) :
    Except EncodingError Unit :=
  match findClash clash ds with
  | some (d, d') => .error (.templateOverlap d.mnemonic d'.mnemonic)
  | none => .ok ()

/-- The catalog of some mnemonics. -/
def build (ms : List Mnemonic) : Except EncodingError Catalog := do
  let ds ← ms.mapM Descriptor.ofMnemonic
  reject (fun d d' => d.template.overlaps d'.template) ds
  reject (fun d d' => d.key == d'.key) ds
  return ofDescriptors ds

variable (c : Catalog)

def descriptors : List Descriptor :=
  c.entries.map (·.2)

/-- The descriptor of a key. -/
def lookup (key : Key) : Option Descriptor :=
  c.entries.lookup key

/-- The descriptor that the keys of a word lead to: the opcode alone is tried
first, then the opcode with the function bits. -/
def candidate (word : Word) : Option Descriptor :=
  (c.lookup (.opcodeOnly word)).or (c.lookup (.withFunction word))

/-- The descriptor whose template the word matches. -/
def decode (word : Word) : Except EncodingError Descriptor :=
  match (c.candidate word).filter (·.template.matchesWord word) with
  | some d => .ok d
  | none => .error (.unknownEncoding word)

/-- The instruction that a word encodes. -/
def resolve (word : Word) : Except EncodingError Instruction :=
  (c.decode word).map fun d => ⟨d.key, d.template.extract word⟩

@[simp] theorem descriptors_ofDescriptors (ds : List Descriptor) :
    (ofDescriptors ds).descriptors = ds := by
  simp [ofDescriptors, descriptors, Function.comp_def]

/-- A key leads to the first descriptor that has it. -/
theorem lookup_ofDescriptors (ds : List Descriptor) (key : Key) :
    (ofDescriptors ds).lookup key = ds.find? (·.key == key) := by
  induction ds with
  | nil => rfl
  | cons d ds ih =>
    simp only [lookup, ofDescriptors, List.map_cons, List.lookup_cons, List.find?_cons] at ih ⊢
    rw [BEq.comm (a := key)]
    cases d.key == key <;> simp [ih]

/-- What is checked when a catalog is built. -/
theorem build_eq_ok_iff {ms : List Mnemonic} {c : Catalog} :
    build ms = .ok c ↔ ∃ ds, ms.mapM Descriptor.ofMnemonic = .ok ds ∧
      ds.Pairwise (fun d d' => d.template.overlaps d'.template = false) ∧
      ds.Pairwise (fun d d' => d.key ≠ d'.key) ∧ c = ofDescriptors ds := by
  have hreject (clash : Descriptor → Descriptor → Bool) (ds : List Descriptor) :
      reject clash ds = .ok () ↔ ds.Pairwise (fun d d' => clash d d' = false) := by
    rw [← findClash_eq_none_iff, reject]
    split <;> simp_all
  unfold build
  constructor
  · intro h
    obtain ⟨ds, hds, h⟩ := bind_eq_ok.1 h
    obtain ⟨_, ht, h⟩ := bind_eq_ok.1 h
    obtain ⟨_, hk, h⟩ := bind_eq_ok.1 h
    cases h
    exact ⟨ds, hds, (hreject _ _).1 ht, by simpa using (hreject _ _).1 hk, rfl⟩
  · rintro ⟨ds, hds, ht, hk, rfl⟩
    refine bind_eq_ok.2 ⟨ds, hds, bind_eq_ok.2 ⟨(), (hreject _ _).2 ht, ?_⟩⟩
    exact bind_eq_ok.2 ⟨(), (hreject _ _).2 (by simpa using hk), rfl⟩

end Catalog

end TetrisMachine
