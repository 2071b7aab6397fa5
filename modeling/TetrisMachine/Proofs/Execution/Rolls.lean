import TetrisMachine.Proofs.Execution.Footprint
import TetrisMachine.Proofs.Execution.Sequence
import TetrisMachine.Proofs.InstructionSet.Operands
import TetrisMachine.Proofs.Random.Draws

/-!
# Rolls between other instructions

Of all that instructions work on, the random source alone belongs to the engine that executes
them. The rest is lent to it and may be set between two instructions. No instruction but a
`drop` that succeeds takes a draw. So what each of these adds to its register depends on the
draws alone and on how many have succeeded before it.

* `Event`: what happens to an engine.
* `Event.rolls`: what every `drop` that succeeds adds to its register.
* `Event.rolled_rolled?`: an event takes the draws of its roll and no others.
* `Event.rolls_of_draws`: rolls depend on the draws only.
-/

namespace TetrisMachine

/-- What happens to an engine: an instruction is executed, or all is set that is lent to it. -/
inductive Event (D : Type) where
  | execute (i : Instruction)
  | set (registers : RegisterFile) (memory : Memory) (output : List String) (delegate : D)

namespace Event

variable {G D : Type} [RandomSource G]

/-- The state and the delegate after an event. An instruction that fails leaves them alone. -/
def after (δ : Delegate D) (s : Cpu G × D) : Event D → Cpu G × D
  | execute i => (i.outcome δ s).2
  | set registers memory output delegate => (⟨registers, memory, output, s.1.random⟩, delegate)

/-- The state and the delegate after events in sequence. -/
def run (δ : Delegate D) (s : Cpu G × D) (events : List (Event D)) : Cpu G × D :=
  events.foldl (after δ) s

/-- What the event adds to a register, if it is a `drop` that succeeds. -/
def rolled? (δ : Delegate D) (s : Cpu G × D) : Event D → Option Word
  | execute i =>
    match i.operation with
    | .ok (.drop d) =>
      match i.outcome δ s with
      | (.ok (), s') => some (s'.1.registers.read d - s.1.registers.read d)
      | (.error _, _) => none
    | _ => none
  | set .. => none

/-- What every `drop` that succeeds adds to its register, in sequence. -/
def rolls (δ : Delegate D) : Cpu G × D → List (Event D) → List Word
  | _, [] => []
  | s, event :: events => (event.rolled? δ s).toList ++ rolls δ (event.after δ s) events

variable {i : Instruction} {op : Operation} {c : Cpu G} {d : D} {r : Register}

/-- An instruction that does not roll a die takes no draw. -/
theorem random_outcome_of_not_rolls (hop : i.operation = .ok op) (h : op.rolls = false)
    (δ : Delegate D) : (i.outcome δ (c, d)).2.1.random = c.random := by
  cases hf : op.fault? c with
  | some fault => rw [Instruction.outcome_of_fault hop hf]
  | none =>
    rw [Instruction.outcome_of_no_fault hop hf]
    exact Operation.random_of_not_rolls c h

theorem fault?_drop_of_roll {face : Word} {g : G}
    (h : roll c.random = some (face, g)) : (Operation.drop r).fault? c = none := by
  rw [Operation.fault?, h]
  rfl

theorem fault?_drop_of_roll_eq_none (h : roll c.random = none) :
    (Operation.drop r).fault? c = some .noRoll := by
  rw [Operation.fault?, h]
  rfl

/-- A `drop` adds the face of its roll and leaves the source that the roll leaves. -/
theorem rolled?_of_roll {face : Word} {g : G} (hop : i.operation = .ok (.drop r))
    (h : roll c.random = some (face, g)) (δ : Delegate D) :
    (execute i).rolled? δ (c, d) = some face ∧ (i.outcome δ (c, d)).2.1.random = g := by
  have hout : i.outcome δ (c, d) = _ :=
    Instruction.outcome_of_no_fault hop (fault?_drop_of_roll h)
  rw [rolled?, hop]
  dsimp only
  rw [hout]
  simp only [Operation.update, Operation.registers, Operation.random, h,
    RegisterFile.read_write_same, and_true]
  rw [BitVec.add_comm, BitVec.add_sub_cancel]

/-- **An event takes the draws of its roll**, if it is one, and takes no draw if it is not. -/
theorem rolled_rolled? (δ : Delegate D) (s : Cpu G × D) (event : Event D) :
    ∃ last, Rolled (drawAt s.1.random) 0 (event.rolled? δ s).toList last ∧
      (event.after δ s).1.random = sourceAfter s.1.random last := by
  obtain ⟨c, d⟩ := s
  cases event with
  | set => exact ⟨0, .done 0, rfl⟩
  | execute i =>
    cases hop : i.operation with
    | error fault =>
      rw [rolled?, hop, after, Instruction.outcome_of_refused hop]
      exact ⟨0, .done 0, rfl⟩
    | ok op =>
      cases op with
      | drop r =>
        cases hroll : roll c.random with
        | none =>
          have hout : i.outcome δ (c, d) = _ :=
            Instruction.outcome_of_fault hop (fault?_drop_of_roll_eq_none hroll)
          rw [rolled?, hop, after, hout]
          exact ⟨0, .done 0, rfl⟩
        | some x =>
          obtain ⟨face, g⟩ := x
          obtain ⟨hrolled, hrandom⟩ := rolled?_of_roll (d := d) hop hroll δ
          obtain ⟨last, hlast, hg⟩ := rolled_of_roll hroll
          rw [hrolled]
          exact ⟨last, hlast, hrandom.trans hg⟩
      | _ =>
        rw [rolled?, hop]
        exact ⟨0, .done 0, random_outcome_of_not_rolls hop rfl δ⟩

/-- **Events in sequence take the draws of their rolls** and no others. -/
theorem rolled_rolls (δ : Delegate D) (events : List (Event D)) {s : Cpu G × D} {g : G} {n : Nat}
    (h : s.1.random = sourceAfter g n) :
    ∃ last, Rolled (drawAt g) n (rolls δ s events) last ∧
      (run δ s events).1.random = sourceAfter g last := by
  induction events generalizing s n with
  | nil => exact ⟨n, .done n, h⟩
  | cons event events ih =>
    obtain ⟨k, hrolled, hrandom⟩ := rolled_rolled? δ s event
    -- the draws from here on are those of the first source from the draw numbered `n` on
    have hdraws : drawAt (sourceAfter g n) = fun i => drawAt g (n + i) :=
      funext fun i => (drawAt_add g n i).symm
    rw [h, hdraws] at hrolled
    rw [h, ← sourceAfter_add] at hrandom
    obtain ⟨last, hrest, hlast⟩ := ih hrandom
    exact ⟨last, (hrolled.shift n).append hrest, hlast⟩

/-- A `drop` into a register succeeds if a draw is left that it can use. -/
theorem outcome_drop (hop : i.operation = .ok (.drop r)) {g : G} (hg : Patient g) {n k : Nat}
    (hc : c.random = sourceAfter g n) (hnk : n ≤ k) (hk : (drawAt g k).getLsbD 29 = false)
    (δ : Delegate D) : ∃ face, (execute i).rolled? δ (c, d) = some face := by
  have hroll := hg.isSome_roll hnk hk
  rw [← hc, Option.isSome_iff_exists] at hroll
  obtain ⟨⟨face, g'⟩, hroll⟩ := hroll
  exact ⟨face, (rolled?_of_roll hop hroll δ).1⟩

/-- **Rolls depend only on the draws and on how many of them there were.** Whatever
instructions an engine executes, and whatever is set between them, the first `drop` that
succeeds takes the draws up to the first one with bit 29 clear, each further one takes those
that follow up to the next one with bit 29 clear, and each adds to its register one more than
the top two bits of the draw it ends with, a number from 1 to 4. Nothing else takes a draw. A
`drop` into a register succeeds as long as a draw is left that it can use. So two engines whose
sources give the same draws roll the same, one by one, whatever else they do. -/
theorem rolls_of_draws (δ : Delegate D) (s : Cpu G × D) (events : List (Event D)) :
    let v := drawAt s.1.random
    let s' := run δ s events
    ∃ last, Rolled v 0 (rolls δ s events) last ∧ s'.1.random = sourceAfter s.1.random last ∧
      (∀ a ∈ rolls δ s events, 1 ≤ a.toNat ∧ a.toNat ≤ 4) ∧
      (∀ event : Event D, event.rolled? δ s' = none → (event.after δ s').1.random = s'.1.random) ∧
      (Patient s.1.random → (∃ k ≥ last, (v k).getLsbD 29 = false) →
        ∀ i r, i.Denotes (.drop r) → ∃ a, (execute i).rolled? δ s' = some a) ∧
      ∀ {G' D' : Type} [RandomSource G'] (δ' : Delegate D') (t : Cpu G' × D')
        (events' : List (Event D')), (∀ k, drawAt t.1.random k = v k) →
          ∀ (k : Nat) a b, (rolls δ s events)[k]? = some a →
            (rolls δ' t events')[k]? = some b → a = b := by
  intro v s'
  obtain ⟨last, hrolled, hrandom⟩ := rolled_rolls δ events (s := s) (n := 0) rfl
  refine ⟨last, hrolled, hrandom, hrolled.toNat_mem, fun event hevent => ?_, ?_, ?_⟩
  · obtain ⟨k, hnone, hlast⟩ := rolled_rolled? δ s' event
    rw [hevent] at hnone
    cases hnone
    exact hlast
  · rintro hpatient ⟨k, hle, hk⟩ i r hop
    exact outcome_drop (Instruction.operation_eq_ok_iff.2 hop) hpatient hrandom hle hk δ
  · intro G' D' _ δ' t events' hdraws k a b ha hb
    obtain ⟨last', hrolled', -⟩ := rolled_rolls δ' events' (s := t) (n := 0) rfl
    rw [funext hdraws] at hrolled'
    exact hrolled.getElem?_eq hrolled' ha hb

/-- Rolls with a failing `drop` between them, and the same rolls without it. -/
theorem rolls_of_draws_drop :
    let g := Replay.ofList [0x20000000, 0x80000000, 0x60000000, 0xc0000001]
    let s : Cpu Replay × Word := (⟨.zero, .zero 0 64, [], g⟩, 4)
    let drop (r : Word) : Event Word := execute (Mnemonic.drop.instruction [r])
    let set : Event Word := set (RegisterFile.zero.write ⟨8⟩ 7) (.zero 0 0) [] 8
    let events := [drop 8, drop 34, set, drop 8]
    rolls .counter s events = [3, 4] ∧ (run .counter s events).1.registers.read ⟨8⟩ = 11 ∧
      (∃ last, Rolled (drawAt g) 0 [3, 4] last ∧
        (run .counter s events).1.random = sourceAfter g last) ∧
      (∃ a, (drop 9).rolled? .counter (run .counter s events) = some a) ∧
      ∀ a b, (rolls .counter s events)[1]? = some a →
        (rolls .counter s [drop 3, drop 3])[1]? = some b → a = b := by
  intro g s drop set events
  obtain ⟨last, hrolled, hrandom, -, -, hdrop, htwo⟩ := rolls_of_draws .counter s events
  have hrolls : rolls .counter s events = [3, 4] := by decide +kernel
  rw [hrolls] at hrolled
  refine ⟨hrolls, by decide +kernel, ⟨last, hrolled, hrandom⟩, ?_, ?_⟩
  · -- the draws come again and again, the second of them among them
    have hleft : (drawAt g (4 * last + 1)).getLsbD 29 = false := by
      have hused : (0 + (4 * last + 1)) % 4 = 1 := by omega
      rw [Replay.drawAt_eq]
      change ((#[0x20000000, 0x80000000, 0x60000000, 0xc0000001] : Array Word).getD
        ((0 + (4 * last + 1)) % 4) 0).getLsbD 29 = false
      rw [hused]
      rfl
    exact hdrop (Replay.patient (by decide)) ⟨_, by omega, hleft⟩
      (Mnemonic.drop.instruction [9]) ⟨9⟩ ⟨rfl, rfl⟩
  · exact htwo .counter s [drop 3, drop 3] (fun _ => rfl) 1

end Event

end TetrisMachine
