import Mathlib.Data.Fintype.Prod
import Mathlib.Data.Fintype.Pigeonhole
import TetrisMachine.Random.Replay
import TetrisMachine.Random.Xoshiro

/-!
# Draws and rolls

The draws of a source are numbered from zero. A roll leaves out the draws with bit 29 set,
takes the first one with bit 29 clear, and comes to one more than its top two bits.

* `Rolled`: what rolls come to, and which draws they take.
* `Rolled.getElem?_eq`: rolls of the same draws come to the same, one by one.
* `rolled_of_roll`: a roll takes the draws up to the next one with bit 29 clear.
* `Patient`: a roll that may find a draw finds one.
* `Patient.of_injective`: a source with so many states is patient if it waits as long.
-/

namespace TetrisMachine

open RandomSource Roll

section

variable {G : Type} [RandomSource G]

theorem sourceAfter_add (g : G) (m n : Nat) :
    sourceAfter g (m + n) = sourceAfter (sourceAfter g m) n := by
  induction m generalizing g with
  | zero => rw [Nat.zero_add, sourceAfter]
  | succ m ih =>
    rw [Nat.add_right_comm, sourceAfter, ih]
    rfl

theorem drawAt_add (g : G) (m n : Nat) : drawAt g (m + n) = drawAt (sourceAfter g m) n := by
  rw [drawAt, drawAt, sourceAfter_add]

/-- The first draw that is used, among those that a roll looks at. -/
theorem exists_of_rollWithin {n : Nat} {g g' : G} {face : Word}
    (h : rollWithin n g = some (face, g')) :
    ∃ k < n, Accepts (drawAt g k) ∧ ∀ i < k, ¬ Accepts (drawAt g i) := by
  have hex : ∃ k, k < n ∧ Accepts (drawAt g k) := by
    by_contra hne
    rw [rollWithin_eq_none fun k hk ha => hne ⟨k, hk, ha⟩] at h
    cases h
  obtain ⟨hlt, ha⟩ := Nat.find_spec hex
  exact ⟨Nat.find hex, hlt, ha, fun i hi hai => Nat.find_min hex hi ⟨hi.trans hlt, hai⟩⟩

/-- A roll fails if none of the draws that it looks at can be used. -/
theorem roll_eq_none_iff {g : G} : roll g = none ↔ ∀ k < patience g, ¬ Accepts (drawAt g k) := by
  constructor
  · intro h k hk ha
    have hex : ∃ k, Accepts (drawAt g k) := ⟨k, ha⟩
    have hfirst : Nat.find hex < patience g := (Nat.find_min' hex ha).trans_lt hk
    have hroll := rollWithin_eq_some hfirst (Nat.find_spec hex) fun j hj => Nat.find_min hex hj
    rw [roll, hroll] at h
    cases h
  · exact rollWithin_eq_none

end

/-! ### Rolls in sequence -/

/-- Rolls that begin with the draw numbered `n` come to the amounts given, and leave off
before the draw numbered `last`. -/
inductive Rolled (v : Nat → Word) : Nat → List Word → Nat → Prop
  | done (n : Nat) : Rolled v n [] n
  | roll {n k last : Nat} {amounts : List Word} :
    n ≤ k → (∀ i, n ≤ i → i < k → (v i).getLsbD 29 = true) → (v k).getLsbD 29 = false →
      Rolled v (k + 1) amounts last → Rolled v n ((1#32 + v k >>> 30) :: amounts) last

namespace Rolled

variable {v : Nat → Word} {n m last last' : Nat} {amounts amounts' : List Word}

theorem append (h : Rolled v n amounts m) (h' : Rolled v m amounts' last) :
    Rolled v n (amounts ++ amounts') last := by
  induction h with
  | done => exact h'
  | roll hle hset hclear _ ih => exact .roll hle hset hclear (ih h')

/-- Rolls of the draws from one on, numbered from there. -/
theorem shift (m : Nat) (h : Rolled (fun k => v (m + k)) n amounts last) :
    Rolled v (m + n) amounts (m + last) := by
  induction h with
  | done n => exact .done (m + n)
  | @roll n k last amounts hle hset hclear _ ih =>
    refine .roll (by omega) (fun i hni hik => ?_) hclear ih
    have hi := hset (i - m) (by omega) (by omega)
    rwa [Nat.add_sub_cancel' (by omega)] at hi

/-- **Rolls of the same draws come to the same**, one by one. -/
theorem getElem?_eq (h : Rolled v n amounts last) (h' : Rolled v n amounts' last') {k : Nat}
    {a b : Word} (ha : amounts[k]? = some a) (hb : amounts'[k]? = some b) : a = b := by
  induction h generalizing amounts' k with
  | done => cases ha
  | @roll n i last amounts hle hset hclear _ ih =>
    cases h' with
    | done => cases hb
    | @roll _ i' _ amounts' hle' hset' hclear' hrest' =>
      -- neither roll goes past the draw that the other one takes
      have hi : i = i' := by
        rcases Nat.lt_trichotomy i i' with hlt | heq | hlt
        · rw [hset' i hle hlt] at hclear
          cases hclear
        · exact heq
        · rw [hset i' hle' hlt] at hclear'
          cases hclear'
      subst hi
      cases k with
      | zero =>
        cases ha
        cases hb
        rfl
      | succ k => exact ih hrest' ha hb

theorem toNat_mem (h : Rolled v n amounts last) : ∀ a ∈ amounts, 1 ≤ a.toNat ∧ a.toNat ≤ 4 := by
  induction h with
  | done => exact fun _ ha => absurd ha List.not_mem_nil
  | @roll n k last amounts _ _ _ _ ih =>
    refine List.forall_mem_cons.2 ⟨?_, ih⟩
    have hlt := (v k).isLt
    rw [BitVec.toNat_add, BitVec.toNat_ushiftRight, Nat.shiftRight_eq_div_pow,
      show (1#32).toNat = 1 from rfl]
    omega

end Rolled

section

variable {G : Type} [RandomSource G]

/-- **A roll takes the draws up to the next one with bit 29 clear**, and comes to one more than
the top two bits of that draw. -/
theorem rolled_of_roll {g g' : G} {face : Word} (h : roll g = some (face, g')) :
    ∃ last, Rolled (drawAt g) 0 [face] last ∧ g' = sourceAfter g last := by
  obtain ⟨k, hk, ha, hr⟩ := exists_of_rollWithin h
  have hroll : roll g = _ := rollWithin_eq_some hk ha hr
  rw [h] at hroll
  cases hroll
  refine ⟨k + 1, ?_, rfl⟩
  rw [face_eq]
  refine .roll (Nat.zero_le k) (fun i _ hi => ?_) ((accepts_iff _).1 ha) (.done (k + 1))
  have hset := hr i hi
  rwa [accepts_iff, Bool.not_eq_false] at hset

/-- The source does not give up on a roll before a draw that can be used, whatever was drawn
before. -/
def Patient (g : G) : Prop :=
  ∀ n k, (drawAt g (n + k)).getLsbD 29 = false →
    ∃ i < patience (sourceAfter g n), (drawAt g (n + i)).getLsbD 29 = false

/-- There is always one more draw that can be used. -/
def Endless (g : G) : Prop :=
  ∀ n, ∃ k ≥ n, (drawAt g k).getLsbD 29 = false

/-- **A roll that may find a draw finds one.** -/
theorem Patient.isSome_roll {g : G} (h : Patient g) {n k : Nat} (hnk : n ≤ k)
    (hk : (drawAt g k).getLsbD 29 = false) : (roll (sourceAfter g n)).isSome := by
  obtain ⟨d, rfl⟩ := Nat.exists_eq_add_of_le hnk
  obtain ⟨i, hi, hclear⟩ := h n d hk
  rw [drawAt_add, ← accepts_iff] at hclear
  rw [Option.isSome_iff_ne_none, ne_eq, roll_eq_none_iff]
  exact fun hnone => hnone i hi hclear

/-- **A source with finitely many states is patient if it waits for as many draws.** By then
a state has come back, and after it come the same draws. -/
theorem Patient.of_injective {α : Type} [Fintype α] {f : G → α} (hf : Function.Injective f) {g : G}
    (h : ∀ n, Fintype.card α ≤ patience (sourceAfter g n)) : Patient g := by
  intro n k hk
  have hex : ∃ i, (drawAt g (n + i)).getLsbD 29 = false := ⟨k, hk⟩
  set i := Nat.find hex with hi
  have hclear : (drawAt g (n + i)).getLsbD 29 = false := Nat.find_spec hex
  refine ⟨i, ?_, hclear⟩
  by_contra hle
  have hcard : Fintype.card α < Fintype.card (Fin (Fintype.card α + 1)) := by
    rw [Fintype.card_fin]
    omega
  obtain ⟨a, b, hne, hab⟩ := Fintype.exists_ne_map_eq_of_card_lt
    (fun j : Fin (Fintype.card α + 1) => f (sourceAfter g (n + j))) hcard
  -- the draw taken comes as much earlier as the state has come back earlier
  have hearlier (a b : Fin (Fintype.card α + 1)) (hlt : a < b)
      (hab : sourceAfter g (n + a) = sourceAfter g (n + b)) : False := by
    have hb : b.val ≤ i := by
      have hn := h n
      omega
    have hdraw : drawAt g (n + (a + (i - b))) = drawAt g (n + i) := by
      rw [← Nat.add_assoc, drawAt_add, hab, ← drawAt_add, Nat.add_assoc, Nat.add_sub_cancel' hb]
    have hlt' : a + (i - b) < i := by
      have := hlt
      omega
    have hmin := Nat.find_min hex hlt'
    rw [hdraw] at hmin
    exact hmin hclear
  rcases lt_or_gt_of_ne hne with hlt | hlt
  · exact hearlier a b hlt (hf hab)
  · exact hearlier b a hlt (hf hab.symm)

end

/-- The seeded generator is patient. -/
theorem Xoshiro.patient (g : Xoshiro) : Patient g := by
  refine Patient.of_injective (f := fun g : Xoshiro => (g.s0.toBitVec.toFin, g.s1.toBitVec.toFin,
    g.s2.toBitVec.toFin, g.s3.toBitVec.toFin)) ?_ fun n => ?_
  · rintro ⟨⟨⟨a⟩⟩, ⟨⟨b⟩⟩, ⟨⟨c⟩⟩, ⟨⟨d⟩⟩⟩ ⟨⟨⟨a'⟩⟩, ⟨⟨b'⟩⟩, ⟨⟨c'⟩⟩, ⟨⟨d'⟩⟩⟩ h
    cases h
    rfl
  · rw [Fintype.card_prod, Fintype.card_prod, Fintype.card_prod, Fintype.card_fin]
    change 2 ^ 64 * (2 ^ 64 * (2 ^ 64 * 2 ^ 64)) ≤ 1 <<< 256
    decide

theorem Replay.sourceAfter_eq (r : Replay) (k : Nat) :
    sourceAfter r k = { r with used := r.used + k } := by
  induction k generalizing r with
  | zero => rfl
  | succ k ih =>
    rw [sourceAfter, ih]
    change (⟨r.draws, r.used + 1 + k⟩ : Replay) = ⟨r.draws, r.used + (k + 1)⟩
    rw [Nat.add_right_comm, Nat.add_assoc]

theorem Replay.drawAt_eq (r : Replay) (k : Nat) :
    drawAt r k = r.draws.getD ((r.used + k) % r.draws.size) 0 := by
  rw [drawAt, sourceAfter_eq]
  rfl

/-- A list of draws that is given over and over is patient. -/
theorem Replay.patient {r : Replay} (h : 0 < r.draws.size) : Patient r := by
  intro n k hk
  refine ⟨k % r.draws.size, ?_, ?_⟩
  · rw [sourceAfter_eq]
    exact Nat.mod_lt k h
  · rw [drawAt_eq] at hk ⊢
    rwa [← Nat.add_assoc, Nat.add_mod_mod, Nat.add_assoc]

end TetrisMachine
