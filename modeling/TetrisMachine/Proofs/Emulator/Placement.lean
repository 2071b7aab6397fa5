import TetrisMachine.Proofs.Emulator.Limit

/-!
# Where the program lies

The words of a program have addresses four apart, and past the end of the address space the
addresses begin again at 0. The program counter and the test for the end of the program follow
them there. What is fetched does not: a word is seen only at an address from its base up. So a
program without jumps is executed to its last word and ends with success if its words begin
below the end of the address space, and fails at the first one that does not.

* `Emulator.fetch_eq_some_iff`: the addresses at which a word is seen.
* `Straight`: words that are executed one after another.
* `Emulator.after_straight`: steps through such words.
* `Emulator.fetch_placement`: what is fetched, how far a program without jumps is executed, and
  how it ends.
-/

namespace TetrisMachine

section

variable {G : Type} [RandomSource G] {words words' : List Word} {c c' : Cpu G}

/-- **Words that are executed one after another**, from one state to another. Each can be
decoded, and its instruction does not fail, is no jump and no branch that is taken. -/
inductive Straight : List Word → Cpu G → Cpu G → Prop
  | nil {c : Cpu G} : Straight [] c c
  | cons (pc : Word) {word : Word} {words : List Word} {i : Instruction} {c c' c'' : Cpu G} :
    instructionSet.resolve word = .ok i → (i.execute pc).run c = .ok .advance c' →
      Straight words c' c'' → Straight (word :: words) c c''

theorem straight_append_iff :
    Straight (words ++ words') c c' ↔ ∃ d, Straight words c d ∧ Straight words' d c' := by
  induction words generalizing c with
  | nil => exact ⟨fun h => ⟨c, .nil, h⟩, fun ⟨_, .nil, h⟩ => h⟩
  | cons word words ih =>
    constructor
    · rintro (_ | ⟨pc, hresolve, hrun, h⟩)
      obtain ⟨d, hd, hd'⟩ := ih.1 h
      exact ⟨d, .cons pc hresolve hrun hd, hd'⟩
    · rintro ⟨d, _ | ⟨pc, hresolve, hrun, h⟩, hd'⟩
      exact .cons pc hresolve hrun (ih.2 ⟨d, h, hd'⟩)

/-- An instruction that is followed by the next one at one place is so at all places. -/
theorem Instruction.execute_eq_advance_iff {i : Instruction} {pc : Word} :
    (i.execute pc).run c = .ok .advance c' ↔
      ∃ op, i.operation = .ok op ∧ op.fault? c = none ∧ op.update c = c' ∧
        ∀ pc', op.transfer c pc' = .advance := by
  constructor
  · intro h
    cases hop : i.operation with
    | error cause =>
      rw [run_execute_of_error hop] at h
      cases h
    | ok op =>
      rw [run_execute_of_ok hop] at h
      cases hf : op.fault? c with
      | some cause =>
        rw [hf] at h
        cases h
      | none =>
        rw [hf] at h
        injection h with htransfer hupdate
        refine ⟨op, rfl, hf, hupdate, fun pc' => ?_⟩
        -- only a jump depends on the place
        cases op
        case shift target => cases htransfer
        all_goals exact htransfer
  · rintro ⟨op, hop, hf, rfl, htransfer⟩
    rw [run_execute_of_ok hop, hf, htransfer]

end

namespace Emulator

variable {G : Type}

/-! ### The addresses of the program -/

section

variable (e : Emulator G)

/-- The address of a word of the program. -/
def addressOf (k : Nat) : Word :=
  e.settings.textBase + BitVec.ofNat 32 (4 * k)

/-- Whether a word of the program begins below the end of the address space. -/
def Below (k : Nat) : Prop :=
  e.settings.textBase.toNat + 4 * k < 0x100000000

instance (k : Nat) : Decidable (e.Below k) :=
  inferInstanceAs (Decidable (_ < _))

/-- The number of words of the program that begin below the end of the address space. -/
def reach : Nat :=
  min e.program.size ((0x100000003 - e.settings.textBase.toNat) / 4)

theorem lt_reach_iff {k : Nat} : k < e.reach ↔ k < e.program.size ∧ e.Below k := by
  unfold reach Below
  omega

theorem reach_le : e.reach ≤ e.program.size :=
  Nat.min_le_left _ _

theorem reach_eq_size_iff : e.reach = e.program.size ↔ ∀ k < e.program.size, e.Below k := by
  constructor
  · intro h k hk
    rw [← h] at hk
    exact (e.lt_reach_iff.1 hk).2
  · intro h
    refine le_antisymm e.reach_le ?_
    by_contra hlt
    exact lt_irrefl _ (e.lt_reach_iff.2 ⟨by omega, h _ (by omega)⟩)

theorem addressOf_zero : e.addressOf 0 = e.settings.textBase :=
  BitVec.add_zero _

theorem addressOf_succ (k : Nat) : e.addressOf (k + 1) = e.addressOf k + 4 := by
  unfold addressOf
  bv_omega

theorem toNat_addressOf (k : Nat) :
    (e.addressOf k).toNat = (e.settings.textBase.toNat + 4 * k) % 0x100000000 := by
  rw [addressOf, BitVec.toNat_add, BitVec.toNat_ofNat]
  omega

end

variable {e : Emulator G} {a w : Word} {j k : Nat}

theorem addressOf_inj (hj : j < 0x40000000) (hk : k < 0x40000000)
    (h : e.addressOf j = e.addressOf k) : j = k := by
  have hnat := congrArg BitVec.toNat h
  rw [toNat_addressOf, toNat_addressOf] at hnat
  omega

/-- **A word is seen at its address**, if that is below the end of the address space. -/
theorem fetch_eq_some_iff :
    e.fetch a = some w ↔ ∃ k, a = e.addressOf k ∧ e.Below k ∧ e.program[k]? = some w := by
  have ha := a.isLt
  unfold fetch
  constructor
  · intro h
    split at h
    · next hle =>
      dsimp only at h
      split at h
      · next hoffset =>
        refine ⟨_, BitVec.eq_of_toNat_eq ?_, ?_, h⟩
        · rw [toNat_addressOf]
          omega
        · unfold Below
          omega
      · cases h
    · cases h
  · rintro ⟨k, rfl, hbelow, hw⟩
    have hnat := e.toNat_addressOf k
    rw [Nat.mod_eq_of_lt hbelow] at hnat
    have hoffset : (e.addressOf k).toNat - e.settings.textBase.toNat = 4 * k := by omega
    rw [if_pos (by omega), hoffset]
    dsimp only
    rw [if_pos (Nat.mul_mod_right 4 k), Nat.mul_div_cancel_left k (by decide), hw]

theorem fetch_eq_none_of_ne (h : ∀ k < e.program.size, a ≠ e.addressOf k) : e.fetch a = none := by
  rw [Option.eq_none_iff_forall_ne_some]
  intro w hw
  obtain ⟨k, haddress, -, hword⟩ := fetch_eq_some_iff.1 hw
  obtain ⟨hk, -⟩ := Array.getElem?_eq_some_iff.1 hword
  exact h k hk haddress

/-- Up to the end of the program, the words are seen at their addresses as far as these do not
wrap. -/
theorem fetch_addressOf (hsize : e.program.size < 0x40000000) (hk : k ≤ e.program.size) :
    e.fetch (e.addressOf k) = if e.Below k then e.program[k]? else none := by
  apply Option.ext
  intro w
  rw [fetch_eq_some_iff]
  constructor
  · rintro ⟨j, haddress, hbelow, hw⟩
    obtain ⟨hj, -⟩ := Array.getElem?_eq_some_iff.1 hw
    obtain rfl : k = j := addressOf_inj (by omega) (by omega) haddress
    rw [if_pos hbelow, hw]
  · intro h
    split at h
    · next hbelow => exact ⟨k, rfl, hbelow, h⟩
    · cases h

theorem fetch_of_lt_reach (hk : k < e.reach) : e.fetch (e.addressOf k) = e.program[k]? := by
  obtain ⟨hlt, hbelow⟩ := e.lt_reach_iff.1 hk
  rw [Array.getElem?_eq_getElem hlt]
  exact fetch_eq_some_iff.2 ⟨k, rfl, hbelow, Array.getElem?_eq_getElem hlt⟩

theorem fetch_reach (hsize : e.program.size < 0x40000000) :
    e.fetch (e.addressOf e.reach) = none := by
  have hle := e.reach_le
  rw [fetch_addressOf hsize hle]
  split
  · next hbelow =>
    rw [Array.getElem?_eq_none_iff]
    by_contra hlt
    exact absurd (e.lt_reach_iff.2 ⟨by omega, hbelow⟩) (lt_irrefl _)
  · rfl

theorem fetch_endAddress (hsize : e.program.size < 0x40000000) : e.fetch e.endAddress = none := by
  have hend : e.fetch (e.addressOf e.program.size) = _ := fetch_addressOf hsize le_rfl
  rw [Array.getElem?_eq_none le_rfl, ite_self] at hend
  exact hend

/-! ### Steps through the program -/

/-- Ready to execute all of the program from its first word. -/
structure Ready (e : Emulator G) : Prop where
  running : e.state = .running
  pc : e.pc = e.settings.textBase
  allows : Allows e.settings.maxSteps (e.steps + e.program.size)

theorem ready_start {settings : Settings} {program : List Word} (random : G)
    (h : Allows settings.maxSteps program.length) : (start settings program random).Ready := by
  refine ⟨rfl, rfl, ?_⟩
  change Allows settings.maxSteps (0 + program.length)
  rwa [Nat.zero_add]

variable [RandomSource G] {words : List Word} {c : Cpu G}

/-- **The end of the program is the address that follows its last word**, and no other. -/
theorem step_eq_halt_iff (hsize : e.program.size < 0x40000000) (hs : e.state ≠ .halted)
    (hl : ¬ e.AtLimit) : e.step = (e.halt, .ok ()) ↔ e.pc = e.endAddress := by
  constructor
  · intro h
    rw [step_eq hs] at h
    cases hp : e.plan with
    | stop answer =>
      rw [hp] at h
      cases h
      exact (plan_eq_stop_ok_iff.1 hp).resolve_left hl |>.1
    | execute i op =>
      rw [hp] at h
      -- an instruction does not halt the run
      exact absurd (congrArg (·.1.state) h) hs
  · intro hpc
    apply step_of_stop hs
    rw [plan_eq_stop_ok_iff, hpc]
    exact .inr ⟨rfl, fetch_endAddress hsize⟩

theorem step_of_advance {i : Instruction} {pc : Word} (hs : e.state ≠ .halted)
    (hl : ¬ e.AtLimit) (hfetch : e.fetch e.pc = some w)
    (hresolve : instructionSet.resolve w = .ok i)
    (hrun : (i.execute pc).run e.cpu = .ok .advance c) :
    e.step = (e.advance i c (e.pc + 4), .ok ()) := by
  obtain ⟨op, hop, hf, rfl, htransfer⟩ := Instruction.execute_eq_advance_iff.1 hrun
  rw [step_eq hs, plan_eq_execute_iff.2 ⟨hl, w, hfetch, hresolve, hop, hf⟩]
  simp only [executed, htransfer, Transfer.target]

/-- **Steps through words that are executed one after another.** -/
theorem after_straight (hs : e.state = .running) (hpc : e.pc = e.addressOf j)
    (hl : Allows e.settings.maxSteps (e.steps + words.length)) (h : Straight words e.cpu c)
    (hwords : ∀ k < words.length, e.fetch (e.addressOf (j + k)) = words[k]?) :
    (e.after words.length).pc = e.addressOf (j + words.length) ∧
      (e.after words.length).cpu = c ∧ (e.after words.length).state = .running := by
  induction words generalizing e j with
  | nil =>
    cases h
    exact ⟨hpc, rfl, hs⟩
  | cons word words ih =>
    obtain _ | ⟨pc, hresolve, hrun, h⟩ := h
    have hfetch : e.fetch e.pc = some word := by
      rw [hpc]
      exact hwords 0 (Nat.succ_pos _)
    have hlimit : ¬ e.AtLimit :=
      not_atLimit_of_allows (hl.mono (Nat.add_le_add_left (Nat.succ_pos _) _))
    have hstep := step_of_advance (by simp [hs]) hlimit hfetch hresolve hrun
    have hlength : j + (word :: words).length = j + 1 + words.length := by
      simp only [List.length_cons]
      omega
    rw [List.length_cons, after_succ', ← List.length_cons, hlength, hstep]
    refine ih hs ?_ ?_ h fun k hk => ?_
    · change e.pc + 4 = e.addressOf (j + 1)
      rw [hpc, addressOf_succ]
    · apply hl.mono
      simp only [advance, List.length_cons]
      omega
    · have hk' := hwords (k + 1) (Nat.succ_lt_succ hk)
      rw [← Nat.add_assoc, Nat.add_right_comm] at hk'
      exact hk'

theorem fetch_after (e : Emulator G) (k : Nat) (a : Word) : (e.after k).fetch a = e.fetch a := by
  unfold fetch
  rw [settings_after, program_after]

/-- Before its last word the program is below the limit. -/
theorem Ready.not_atLimit (hr : e.Ready) (hk : k < e.program.size)
    (hs : (e.after k).state ≠ .halted) : ¬ (e.after k).AtLimit := by
  apply not_atLimit_of_allows
  rw [settings_after, steps_after hs]
  exact hr.allows.mono (by omega)

/-- Within reach a program that is straight is executed word by word. -/
theorem Ready.after (hr : e.Ready) (h : Straight e.program.toList e.cpu c) (hk : k ≤ e.reach) :
    (e.after k).pc = e.addressOf k ∧ (e.after k).state = .running ∧
      Straight (e.program.toList.drop k) (e.after k).cpu c := by
  have hle := e.reach_le
  have hlength : (e.program.toList.take k).length = k := by
    rw [List.length_take, Array.length_toList]
    omega
  rw [← List.take_append_drop k e.program.toList, straight_append_iff] at h
  obtain ⟨d, hbefore, hrest⟩ := h
  obtain ⟨hpc, hcpu, hs⟩ := after_straight (j := 0) hr.running
    (hr.pc.trans e.addressOf_zero.symm) (hr.allows.mono (by omega)) hbefore fun m hm => by
      rw [hlength] at hm
      rw [Nat.zero_add, fetch_of_lt_reach (by omega), List.getElem?_take_of_lt hm,
        Array.getElem?_toList]
  rw [hlength] at hpc hcpu hs
  rw [hcpu]
  exact ⟨by rw [hpc, Nat.zero_add], hs, hrest⟩

theorem Ready.step (hr : e.Ready) (h : Straight e.program.toList e.cpu c) (hk : k < e.reach) :
    ∃ w i c', e.program[k]? = some w ∧ instructionSet.resolve w = .ok i ∧
      (e.after k).step = ((e.after k).advance i c' (e.addressOf (k + 1)), .ok ()) := by
  obtain ⟨hsize, -⟩ := e.lt_reach_iff.1 hk
  obtain ⟨hpc, hs, hrest⟩ := hr.after h hk.le
  have hne : (e.after k).state ≠ .halted := by simp [hs]
  rw [List.drop_eq_getElem_cons (by simpa using hsize)] at hrest
  obtain _ | ⟨pc, hresolve, hrun, -⟩ := hrest
  have hword : e.program[k]? = some e.program[k] := Array.getElem?_eq_getElem hsize
  have hfetch : (e.after k).fetch (e.after k).pc = some e.program[k] := by
    rw [fetch_after, hpc, fetch_of_lt_reach hk, hword]
  rw [Array.getElem_toList] at hresolve
  have hstep := step_of_advance hne (hr.not_atLimit hsize hne) hfetch hresolve hrun
  rw [hpc, ← addressOf_succ] at hstep
  exact ⟨_, _, _, hword, hresolve, hstep⟩

/-- A program that is straight stops at the first word that it does not reach. -/
theorem Ready.stopsAfter (hr : e.Ready) (hsize : e.program.size < 0x40000000)
    (h : Straight e.program.toList e.cpu c) :
    StopsAfter e.reach e (e.after e.reach).halt
      (if e.reach = e.program.size then .ok () else .error (.outside (e.addressOf e.reach))) := by
  obtain ⟨hpc, hs, -⟩ := hr.after h le_rfl
  have hne : (e.after e.reach).state ≠ .halted := by simp [hs]
  have hle := e.reach_le
  have hfetch : (e.after e.reach).fetch (e.after e.reach).pc = none := by
    rw [fetch_after, hpc, fetch_reach hsize]
  have hend : (e.after e.reach).endAddress = e.addressOf e.program.size := by
    rw [endAddress, settings_after, program_after, addressOf]
  refine ⟨hs, step_of_stop hne ?_, rfl⟩
  split
  · next hall =>
    refine plan_eq_stop_ok_iff.2 (.inr ⟨?_, hfetch⟩)
    rw [hpc, hend, hall]
  · next hpart =>
    refine plan_eq_stop_error_iff.2 ⟨hr.not_atLimit (by omega) hne, ?_⟩
    rw [← hpc]
    refine .outside hfetch fun heq => hpart ?_
    rw [hpc, hend] at heq
    exact addressOf_inj (by omega) (by omega) heq

open Debugger

/-- **Where the program lies.** A word of the program is fetched at its address if that is below
the end of the address space, and at an address past the end, which wraps, nothing is fetched. At
addresses that are not of the program nothing is fetched. The run ends with success exactly at the
address that follows the last word, also if that wraps. So a program in which no instruction
fails, jumps or takes a branch is executed word by word as far as its words begin below the end of
the address space. If all of them do, it then ends with success, in the state that they lead to.
If not, it fails at the first address that wraps. -/
theorem fetch_placement (e : Emulator G) (hsize : e.program.size < 0x40000000) :
    (∀ k < e.program.size,
      e.fetch (e.addressOf k) = if e.Below k then e.program[k]? else none) ∧
    (∀ a, (∀ k < e.program.size, a ≠ e.addressOf k) → e.fetch a = none) ∧
    (e.state ≠ .halted → ¬ e.AtLimit →
      (e.step = (e.halt, .ok ()) ↔ e.pc = e.addressOf e.program.size)) ∧
    ∀ c, e.Ready → Straight e.program.toList e.cpu c →
      let x := (e.after e.reach).halt
      let answer : Except StepError Unit :=
        if e.reach = e.program.size then .ok () else .error (.outside (e.addressOf e.reach))
      (∀ k < e.reach, (e.after k).pc = e.addressOf k ∧
        ∃ w i c', e.program[k]? = some w ∧ instructionSet.resolve w = .ok i ∧
          e.after (k + 1) = (e.after k).advance i c' (e.addressOf (k + 1))) ∧
      (∀ fuel input, e.reach + 2 ≤ fuel → run fuel e input = some ⟨⟨x, input, []⟩, answer⟩) ∧
      x.steps = e.steps + e.reach ∧
      (e.reach = e.program.size ↔ ∀ k < e.program.size, e.Below k) ∧
      (e.reach = e.program.size → (e.after e.reach).cpu = c) := by
  refine ⟨fun k hk => fetch_addressOf hsize hk.le, fun a => fetch_eq_none_of_ne,
    step_eq_halt_iff hsize, fun c hr h => ?_⟩
  intro x answer
  have hstops : StopsAfter e.reach e x answer := hr.stopsAfter hsize h
  refine ⟨fun k hk => ⟨(hr.after h hk.le).1, ?_⟩, fun fuel input hfuel => hstops.run_eq hfuel input,
    hstops.steps, e.reach_eq_size_iff, fun hall => ?_⟩
  · obtain ⟨w, i, c', hword, hresolve, hstep⟩ := hr.step h hk
    exact ⟨w, i, c', hword, hresolve, congrArg Prod.fst hstep⟩
  · obtain ⟨-, -, hrest⟩ := hr.after h le_rfl
    rw [List.drop_eq_nil_of_le (by rw [Array.length_toList, hall])] at hrest
    cases hrest
    rfl

/-- Two sums, the second of the first. -/
theorem exists_straight_harddrop :
    ∃ c, Straight [0x20080001, 0x21080001] (start {} [] (⟨#[], 0⟩ : Replay)).cpu c ∧
      c.registers.read ⟨8⟩ = 2 := by
  have hfirst : (Mnemonic.harddrop.instruction [8, 0, 1]).operation =
      .ok (.harddrop ⟨8⟩ ⟨0⟩ 1) := by decide
  have hsecond : (Mnemonic.harddrop.instruction [8, 8, 1]).operation =
      .ok (.harddrop ⟨8⟩ ⟨8⟩ 1) := by decide
  refine ⟨_, .cons 0 (by decide +kernel)
    (Instruction.execute_eq_advance_iff.2 ⟨_, hfirst, by decide +kernel, rfl, fun _ => rfl⟩)
    (.cons 0 (by decide +kernel) (Instruction.execute_eq_advance_iff.2
      ⟨_, hsecond, by decide +kernel, rfl, fun _ => rfl⟩) .nil), by decide +kernel⟩

/-- Two sums in the last two words of the address space. -/
theorem fetch_placement_last :
    let program : List Word := [0x20080001, 0x21080001]
    let e : Emulator Replay := start { textBase := 0xfffffff8 } program ⟨#[], 0⟩
    e.Ready ∧ (∃ c, Straight program e.cpu c) ∧
      e.fetch (e.addressOf 1) = some 0x21080001 ∧
      run 4 e [] = some ⟨⟨(e.after 2).halt, [], []⟩, .ok ()⟩ ∧
      (e.after 2).pc = 0 ∧ (e.after 2).cpu.registers.read ⟨8⟩ = 2 := by
  intro program e
  have hready : e.Ready := ready_start _ (allows_none 2)
  obtain ⟨c, hstraight, hread⟩ := exists_straight_harddrop
  obtain ⟨hfetch, -, -, hstops⟩ := fetch_placement e (by decide)
  obtain ⟨-, hrun, -, -, hcpu⟩ := hstops c hready hstraight
  have hreach : e.reach = 2 := by decide
  have hafter := hcpu hreach
  rw [hreach] at hafter hrun
  exact ⟨hready, ⟨c, hstraight⟩, hfetch 1 (by decide), hrun 4 [] (by decide), by decide +kernel,
    by rw [hafter, hread]⟩

/-- The same program one word further up. Its second word has the address 0, the run gets there,
and nothing is fetched. -/
theorem fetch_ne_placement :
    let program : List Word := [0x20080001, 0x21080001]
    let e : Emulator Replay := start { textBase := 0xfffffffc } program ⟨#[], 0⟩
    e.Ready ∧ (∃ c, Straight program e.cpu c) ∧
      e.addressOf 1 = 0 ∧ (e.after 1).pc = 0 ∧ e.endAddress = 4 ∧ e.fetch 0 = none ∧
      (run 4 e []).map (fun ending => (ending.emulator.steps, ending.result)) =
        some (1, .error (.outside 0)) := by
  intro program e
  obtain ⟨c, hstraight, -⟩ := exists_straight_harddrop
  exact ⟨ready_start _ (allows_none 2), ⟨c, hstraight⟩, by decide, by decide +kernel, by decide,
    by decide, by decide +kernel⟩

end Emulator

end TetrisMachine
