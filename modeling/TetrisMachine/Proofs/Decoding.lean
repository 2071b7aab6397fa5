import Mathlib.Data.List.Pairwise
import TetrisMachine.Catalog

/-!
# Decoding by key

Decoding looks up at most two keys and checks one template. It stops at the first
key that it finds, so it is right only for a catalog that is **keyed**: every
template fixes the opcode, and the instructions of one opcode either all use
their function bits or none does. In such a catalog the key of a descriptor is
the first one found for each word that matches, and decoding agrees with trying
every template.

* `length_matching_le_one`: at most one descriptor of a catalog matches a word.
* `decode_eq_scan`: decoding by key is decoding by trying every template.
* `resolve_eq_ok_iff`: the instruction that a word is resolved to.
-/

namespace TetrisMachine

/-- Templates that match the same word overlap. -/
theorem Template.overlaps_of_matchesWord {t t' : Template} {w : Word} (h : t.matchesWord w)
    (h' : t'.matchesWord w) : t.overlaps t' := by
  rw [matches_iff] at h h'
  rw [overlaps, beq_iff_eq, ← h, ← h']
  apply BitVec.eq_of_getLsbD_eq
  intro i _
  rw [BitVec.getLsbD_and, BitVec.getLsbD_xor]
  simp only [BitVec.getLsbD_and]
  cases w.getLsbD i <;> cases t.mask.getLsbD i <;> cases t'.mask.getLsbD i <;> simp

namespace Key

/-- A mask that keeps the opcode keeps all bits past the low 26. -/
theorem opcodeOf_and {w mask : Word} (h : mask >>> 26 = 0x3f) :
    opcodeOf (w &&& mask) = opcodeOf w := by
  have hw : w >>> 26 &&& (0x3f : Word) = w >>> 26 := by
    apply BitVec.eq_of_toNat_eq
    have hlt : (w >>> 26).toNat < 2 ^ 6 := by
      have := w.isLt
      rw [BitVec.toNat_ushiftRight, Nat.shiftRight_eq_div_pow]
      omega
    rw [BitVec.toNat_and]
    exact Nat.and_two_pow_sub_one_of_lt_two_pow hlt
  rw [opcodeOf, BitVec.ushiftRight_and_distrib, h, hw, opcodeOf]

theorem functionOf_and {w mask : Word} (h : mask &&& 0x3f = 0x3f) :
    functionOf (w &&& mask) = functionOf w := by
  rw [functionOf, BitVec.and_assoc, h, functionOf]

end Key

/-- The words that match lead to the key of their template. -/
theorem Template.key_of_matchesWord {t : Template} {w : Word} (hop : t.mask >>> 26 = 0x3f)
    (hw : t.matchesWord w) (format : OperandFormat) :
    t.key format = if (t.key format).function.isSome then .withFunction w else .opcodeOnly w := by
  rw [matches_iff] at hw
  have hbits : Key.opcodeOf t.bits = Key.opcodeOf w := by rw [← hw, Key.opcodeOf_and hop]
  unfold key
  split
  · next h =>
    have hfun : Key.functionOf t.bits = Key.functionOf w := by rw [← hw, Key.functionOf_and h.2]
    simp [Key.withFunction, hbits, hfun]
  · simp [Key.opcodeOnly, hbits]

namespace Catalog

variable {c : Catalog} {ms : List Mnemonic} {w : Word} {d : Descriptor}

/-- The descriptors whose template the word matches. -/
def matching (c : Catalog) (w : Word) : List Descriptor :=
  c.descriptors.filter (·.template.matchesWord w)

/-- Decoding by trying every template in turn. -/
def scan (c : Catalog) (w : Word) : Except EncodingError Descriptor :=
  match c.descriptors.find? (·.template.matchesWord w) with
  | some d => .ok d
  | none => .error (.unknownEncoding w)

/-- The keys that a word leads to can be tried one after the other. -/
structure Keyed (c : Catalog) : Prop where
  /-- Every template fixes the six bits of the opcode. -/
  opcode : ∀ d ∈ c.descriptors, d.template.mask >>> 26 = 0x3f
  /-- Whether the function bits take part depends on the opcode alone. -/
  function : ∀ d ∈ c.descriptors, ∀ d' ∈ c.descriptors, d.key.opcode = d'.key.opcode →
    d.key.function.isSome = d'.key.function.isSome

/-- **At most one template of a catalog matches a word.** -/
theorem length_matching_le_one (hb : build ms = .ok c) (w : Word) :
    (c.matching w).length ≤ 1 := by
  obtain ⟨ds, -, ht, -, rfl⟩ := build_eq_ok_iff.1 hb
  have hp : ((ofDescriptors ds).matching w).Pairwise
      fun d d' => d.template.overlaps d'.template = false := by
    rw [matching, descriptors_ofDescriptors]
    exact ht.filter _
  have hm : ∀ d ∈ (ofDescriptors ds).matching w, d.template.matchesWord w :=
    fun d hd => (List.mem_filter.1 hd).2
  -- two descriptors that match would overlap
  match h : (ofDescriptors ds).matching w with
  | [] | [_] => simp
  | d :: d' :: _ =>
    rw [h] at hp hm
    have := (List.pairwise_cons.1 hp).1 d' (by simp)
    rw [Template.overlaps_of_matchesWord (hm d (by simp)) (hm d' (by simp))] at this
    cases this

/-- The descriptor that matches is the only one. -/
theorem matching_eq_singleton_iff (hb : build ms = .ok c) :
    c.matching w = [d] ↔ d ∈ c.descriptors ∧ d.template.matchesWord w := by
  have hmem : d ∈ c.matching w ↔ d ∈ c.descriptors ∧ d.template.matchesWord w := List.mem_filter
  have hle := length_matching_le_one hb w
  rw [← hmem]
  constructor
  · intro h
    rw [h]
    exact List.mem_singleton_self d
  · intro h
    match hl : c.matching w with
    | [] => simp [hl] at h
    | [d'] =>
      rw [hl, List.mem_singleton] at h
      rw [h]
    | _ :: _ :: _ => simp [hl] at hle

theorem matching_eq_nil_iff : c.matching w = [] ↔
    ∀ d ∈ c.descriptors, ¬ d.template.matchesWord w := by
  simp [matching, List.filter_eq_nil_iff]

/-- A descriptor is found under its key. -/
theorem lookup_key (hb : build ms = .ok c) (hd : d ∈ c.descriptors) : c.lookup d.key = some d := by
  obtain ⟨ds, -, -, hk, rfl⟩ := build_eq_ok_iff.1 hb
  rw [descriptors_ofDescriptors] at hd
  rw [lookup_ofDescriptors]
  have hsome : (ds.find? (·.key == d.key)).isSome := List.find?_isSome.2 ⟨d, hd, by simp⟩
  obtain ⟨d', hd'⟩ := Option.isSome_iff_exists.1 hsome
  have heq : d'.key = d.key := by simpa using List.find?_some hd'
  have hmem := List.mem_of_find?_eq_some hd'
  rw [hd']
  -- another descriptor under the same key would clash with this one
  by_contra hne
  have hsymm : Std.Symm fun d d' : Descriptor => d.key ≠ d'.key := ⟨fun _ _ h => h.symm⟩
  exact hk.forall hmem hd (fun h => hne (congrArg some h)) heq

theorem mem_of_lookup (hb : build ms = .ok c) {key : Key} (h : c.lookup key = some d) :
    d ∈ c.descriptors ∧ d.key = key := by
  obtain ⟨ds, -, -, -, rfl⟩ := build_eq_ok_iff.1 hb
  rw [lookup_ofDescriptors] at h
  rw [descriptors_ofDescriptors]
  exact ⟨List.mem_of_find?_eq_some h, by simpa using List.find?_some h⟩

/-- **The first key that is found is that of the template that matches.** -/
theorem candidate_of_matchesWord (hb : build ms = .ok c) (hk : c.Keyed) (hd : d ∈ c.descriptors)
    (hw : d.template.matchesWord w) : c.candidate w = some d := by
  have hkey := Template.key_of_matchesWord (hk.opcode d hd) hw d.format
  have hlook := lookup_key hb hd
  rw [Descriptor.key] at hlook
  unfold candidate
  split at hkey
  · next hsome =>
    -- the opcode alone finds nothing, since its instructions use their function bits
    have hnone : c.lookup (.opcodeOnly w) = none := by
      rw [Option.eq_none_iff_forall_ne_some]
      intro d' hd'
      obtain ⟨hmem, hkey'⟩ := mem_of_lookup hb hd'
      have hop : d.key.opcode = d'.key.opcode := by
        rw [hkey', Descriptor.key, hkey]
        rfl
      have := hk.function d hd d' hmem hop
      rw [hkey', Descriptor.key, hsome] at this
      cases this
    rw [hnone, Option.none_or, ← hkey, hlook]
  · rw [← hkey, hlook, Option.some_or]

/-- Decoding gives a descriptor of the catalog that the word matches. -/
theorem decode_eq_ok_iff (hb : build ms = .ok c) (hk : c.Keyed) :
    c.decode w = .ok d ↔ d ∈ c.descriptors ∧ d.template.matchesWord w := by
  constructor
  · intro h
    unfold decode at h
    split at h
    · next d' hd' =>
      cases h
      obtain ⟨hc, hw⟩ := Option.filter_eq_some_iff.1 hd'
      rw [candidate, Option.or_eq_some_iff] at hc
      -- whichever key was found, its descriptor is in the catalog
      rcases hc with hc | ⟨-, hc⟩
      · exact ⟨(mem_of_lookup hb hc).1, hw⟩
      · exact ⟨(mem_of_lookup hb hc).1, hw⟩
    · cases h
  · rintro ⟨hd, hw⟩
    simp [decode, candidate_of_matchesWord hb hk hd hw, Option.filter, hw]

/-- A word that matches nothing is unknown. -/
theorem decode_eq_error_iff {e : EncodingError} (hb : build ms = .ok c) (hk : c.Keyed) :
    c.decode w = .error e ↔
      e = .unknownEncoding w ∧ ∀ d ∈ c.descriptors, ¬ d.template.matchesWord w := by
  cases h : c.decode w with
  | ok d =>
    obtain ⟨hd, hw⟩ := (decode_eq_ok_iff hb hk).1 h
    simp only [reduceCtorEq, false_iff, not_and]
    exact fun _ hn => hn d hd hw
  | error e' =>
    have hn : ∀ d ∈ c.descriptors, ¬ d.template.matchesWord w := by
      intro d hd hw
      rw [(decode_eq_ok_iff hb hk).2 ⟨hd, hw⟩] at h
      cases h
    have he : e' = .unknownEncoding w := by
      unfold decode at h
      split at h <;> cases h
      rfl
    rw [he, Except.error.injEq, eq_comm]
    exact ⟨fun h => ⟨h, hn⟩, And.left⟩

/-- **Decoding by key is decoding by trying every template.** -/
theorem decode_eq_scan (hb : build ms = .ok c) (hk : c.Keyed) (w : Word) :
    c.decode w = c.scan w := by
  unfold scan
  split
  · next d h =>
    have hw : d.template.matchesWord w := by simpa using List.find?_some h
    exact (decode_eq_ok_iff hb hk).2 ⟨List.mem_of_find?_eq_some h, hw⟩
  · next h =>
    refine (decode_eq_error_iff hb hk).2 ⟨rfl, fun d hd => ?_⟩
    simpa using List.find?_eq_none.1 h d hd

theorem resolve_eq_ok_iff {i : Instruction} :
    c.resolve w = .ok i ↔ ∃ d, c.decode w = .ok d ∧ i = ⟨d.key, d.template.extract w⟩ := by
  unfold resolve
  cases c.decode w <;> simp [Except.map, eq_comm]

theorem resolve_eq_error_iff {cause : EncodingError} :
    c.resolve w = .error cause ↔ c.decode w = .error cause := by
  unfold resolve
  cases c.decode w <;> simp [Except.map]

end Catalog

end TetrisMachine
