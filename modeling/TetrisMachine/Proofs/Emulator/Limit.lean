import TetrisMachine.Proofs.Emulator.Ending
import TetrisMachine.Proofs.Execution.Rolls

/-!
# The step limit

A limit is looked at before each step and plays no other part. So below it a run does what it
does without a limit, and at it the run stops. Each step that goes on brings the run closer to
its limit, so that a run with a limit always ends.

* `Emulator.limited`: an emulator with another limit.
* `Emulator.after_limited`: below both limits the steps are the same.
* `StopsAfter`: after how many instructions a run stops, where, and with which answer.
* `exists_stopsAfter`: a run with a limit stops.
* `StopsAfter.limited`: a run that stops below another limit stops there too.
* `run_limited`: a limit cuts a run short and does nothing else.
-/

namespace TetrisMachine

namespace Emulator

variable {G : Type}

/-! ### Steps below a limit -/

/-- The emulator with another limit. -/
def limited (limit : Option Nat) (e : Emulator G) : Emulator G :=
  { e with settings := { e.settings with maxSteps := limit } }

/-- Whether so many instructions may be executed. -/
def Allows (limit : Option Nat) (n : Nat) : Prop :=
  ∀ m ∈ limit, n ≤ m

theorem Allows.mono {limit : Option Nat} {m n : Nat} (h : Allows limit n) (hmn : m ≤ n) :
    Allows limit m :=
  fun k hk => hmn.trans (h k hk)

theorem allows_none (n : Nat) : Allows none n :=
  fun _ hm => by cases hm

theorem allows_some {m n : Nat} (h : n ≤ m) : Allows (some m) n := by
  rintro _ ⟨⟩
  exact h

theorem not_atLimit_of_allows {e : Emulator G} (h : Allows e.settings.maxSteps (e.steps + 1)) :
    ¬ e.AtLimit := by
  rintro ⟨limit, hlimit, hle⟩
  exact absurd (h limit hlimit) (by omega)

variable [RandomSource G] {e x : Emulator G} {limit : Option Nat}

/-- **A step below both limits is the same step.** -/
theorem step_limited (h : ¬ e.AtLimit) (h' : ¬ (e.limited limit).AtLimit) :
    (e.limited limit).step = (e.step.1.limited limit, e.step.2) := by
  by_cases hs : e.state = .halted
  · rw [step_of_halted e hs]
    exact step_of_halted (e.limited limit) hs
  -- nothing else that is planned depends on the limit
  have hplan : (e.limited limit).plan = e.plan := by
    rw [plan, plan, if_neg h, if_neg h']
    rfl
  have hstep : (e.limited limit).step = _ := step_eq hs
  rw [hstep, hplan, step_eq hs]
  cases e.plan <;> rfl

theorem step_after_limited {k : Nat} (h : Allows e.settings.maxSteps (e.steps + (k + 1)))
    (h' : Allows limit (e.steps + (k + 1))) :
    ((e.after k).limited limit).step = ((e.after k).step.1.limited limit, (e.after k).step.2) := by
  have hle := steps_after_le e k
  apply step_limited
  · apply not_atLimit_of_allows
    rw [settings_after]
    exact h.mono (by omega)
  · apply not_atLimit_of_allows
    apply h'.mono
    change (e.after k).steps + 1 ≤ _
    omega

/-- **Below both limits the steps are the same.** -/
theorem after_limited {k : Nat} (h : Allows e.settings.maxSteps (e.steps + k))
    (h' : Allows limit (e.steps + k)) : (e.limited limit).after k = (e.after k).limited limit := by
  induction k with
  | zero => rfl
  | succ k ih =>
    rw [after, ih (h.mono (by omega)) (h'.mono (by omega)), step_after_limited h h', after]

/-! ### The draws of a run -/

/-- A step takes the draws of its roll, if it has one. -/
theorem exists_random_step (e : Emulator G) :
    ∃ k, e.step.1.cpu.random = sourceAfter e.cpu.random k := by
  by_cases hs : e.state = .halted
  · rw [step_of_halted e hs]
    exact ⟨0, rfl⟩
  rw [step_eq hs]
  cases hp : e.plan with
  | stop answer => exact ⟨0, rfl⟩
  | execute i op =>
    obtain ⟨-, -, -, -, hop, hf⟩ := plan_eq_execute_iff.1 hp
    obtain ⟨k, -, hk⟩ := Event.rolled_rolled? .counter (e.cpu, e.pc + 4) (.execute i)
    rw [Event.after, Instruction.outcome_of_no_fault hop hf] at hk
    exact ⟨k, hk⟩

theorem exists_random_after (e : Emulator G) (k : Nat) :
    ∃ n, (e.after k).cpu.random = sourceAfter e.cpu.random n := by
  induction k with
  | zero => exact ⟨0, rfl⟩
  | succ k ih =>
    obtain ⟨m, hm⟩ := ih
    obtain ⟨n, hn⟩ := exists_random_step (e.after k)
    exact ⟨m + n, by rw [after, hn, hm, sourceAfter_add]⟩

/-- A step that fails for want of a roll has found no draw that it can use. -/
theorem Explains.roll_eq_none {pc : Word} {i : Instruction}
    (h : e.Explains (.failed pc i .noRoll)) : roll e.cpu.random = none := by
  cases h with
  | failed _ hresolve hrun =>
    obtain ⟨op, -, -, -, -, -, hperform⟩ := perform_of_resolve (G := G) (D := Word) hresolve
    rcases (hperform .counter _ _).1 _ hrun with hraises | ⟨-, -, hroll⟩
    · cases op <;> simp [Operation.Raises] at hraises
    · exact roll_eq_none_iff.2 hroll

/-! ### Runs that stop -/

/-- **A run stops**: so many steps execute an instruction each, and the next one halts the run
and leaves this state and this answer. -/
structure StopsAfter (k : Nat) (e x : Emulator G) (answer : Except StepError Unit) : Prop where
  running : (e.after k).state = .running
  step : (e.after k).step = (x, answer)
  halted : x.state = .halted

namespace StopsAfter

variable {answer answer' : Except StepError Unit} {y : Emulator G} {j k : Nat}

theorem plan (h : StopsAfter k e x answer) :
    (e.after k).plan = .stop answer ∧ x = (e.after k).halt := by
  have hs : (e.after k).state ≠ .halted := by simp [h.running]
  have hstep := h.step
  rw [step_eq hs] at hstep
  cases hp : (e.after k).plan with
  | stop answer' =>
    rw [hp] at hstep
    cases hstep
    exact ⟨rfl, rfl⟩
  | execute i op =>
    rw [hp] at hstep
    cases hstep
    exact absurd h.halted hs

theorem after_eq (h : StopsAfter k e x answer) (hkj : k < j) : e.after j = x := by
  have hx : e.after (k + 1) = x := congrArg Prod.fst h.step
  rw [after_of_le hkj, hx]
  rw [hx]
  exact h.halted

theorem eq_halt (h : StopsAfter k e x answer) (hkj : k ≤ j) : x = (e.after j).halt := by
  obtain ⟨-, hx⟩ := h.plan
  rcases hkj.eq_or_lt with rfl | hlt
  · exact hx
  · rw [h.after_eq hlt, hx]
    rfl

theorem steps (h : StopsAfter k e x answer) : x.steps = e.steps + k := by
  obtain ⟨-, rfl⟩ := h.plan
  exact steps_after (by simp [h.running])

/-- A run at its limit stops with success. -/
theorem eq_ok {n : Nat} (h : StopsAfter k e x answer) (hn : e.settings.maxSteps = some n)
    (hk : n ≤ e.steps + k) : answer = .ok () := by
  have hlimit : (e.after k).AtLimit := by
    refine ⟨n, ?_, ?_⟩
    · rw [settings_after]
      exact hn
    · rw [steps_after (by simp [h.running])]
      exact hk
  have hplan := h.plan.1.symm.trans (plan_eq_stop_ok_iff.2 (.inl hlimit))
  cases hplan
  rfl

/-- A run with draws left that it can use does not stop for want of a roll. -/
theorem ne_noRoll (h : StopsAfter k e x answer) (hpatient : Patient e.cpu.random)
    (hendless : Endless e.cpu.random) (pc : Word) (i : Instruction) :
    answer ≠ .error (.failed pc i .noRoll) := by
  rintro rfl
  obtain ⟨-, hexplains⟩ := plan_eq_stop_error_iff.1 h.plan.1
  obtain ⟨n, hn⟩ := exists_random_after e k
  obtain ⟨d, hd, hclear⟩ := hendless n
  have hroll : (roll (sourceAfter e.cpu.random n)).isSome := hpatient.isSome_roll hd hclear
  rw [← hn, hexplains.roll_eq_none] at hroll
  cases hroll

/-- A run stops once. -/
theorem unique (h : StopsAfter k e x answer) (h' : StopsAfter j e y answer') :
    k = j ∧ x = y ∧ answer = answer' := by
  have hle {k j : Nat} {x y : Emulator G} {answer answer' : Except StepError Unit}
      (h : StopsAfter k e x answer) (h' : StopsAfter j e y answer') : j ≤ k := by
    by_contra hlt
    have hrunning := h'.running
    rw [h.after_eq (by omega), h.halted] at hrunning
    cases hrunning
  obtain rfl : k = j := le_antisymm (hle h' h) (hle h h')
  have hstep := h.step.symm.trans h'.step
  cases hstep
  exact ⟨rfl, rfl, rfl⟩

/-- **A run that stops below another limit stops there too**, in the same state. -/
theorem limited (h : StopsAfter k e x answer)
    (hlimit : Allows e.settings.maxSteps (e.steps + (k + 1)))
    (hlimit' : Allows limit (e.steps + (k + 1))) :
    StopsAfter k (e.limited limit) (x.limited limit) answer := by
  have hafter : (e.limited limit).after k = (e.after k).limited limit :=
    after_limited (hlimit.mono (by omega)) (hlimit'.mono (by omega))
  refine ⟨?_, ?_, h.halted⟩
  · rw [hafter]
    exact h.running
  · rw [hafter, step_after_limited hlimit hlimit', h.step]

/-- **A run that stops later goes on first.** -/
theorem succ_iff : StopsAfter (k + 1) e x answer ↔
    e.state = .running ∧ e.step = (e.step.1, .ok ()) ∧ StopsAfter k e.step.1 x answer := by
  have hsucc : StopsAfter (k + 1) e x answer ↔ StopsAfter k e.step.1 x answer := by
    constructor <;> intro ⟨hrunning, hstep, hhalted⟩
    · rw [after_succ'] at hrunning hstep
      exact ⟨hrunning, hstep, hhalted⟩
    · rw [← after_succ'] at hrunning hstep
      exact ⟨hrunning, hstep, hhalted⟩
  refine ⟨fun h => ?_, fun h => hsucc.2 h.2.2⟩
  have hrest := hsucc.1 h
  have hs : e.state = .running := running_of_after h.running
  have hs' : e.step.1.state = .running := running_of_after hrest.running
  refine ⟨hs, ?_, hrest⟩
  -- the step has not halted the run, so it has executed an instruction
  rw [step_eq (by simp [hs])] at hs' ⊢
  cases hp : e.plan with
  | stop answer =>
    rw [hp] at hs'
    cases hs'
  | execute i op => rfl

open Debugger in
/-- The run answers what it stops with. -/
theorem run_eq (h : StopsAfter k e x answer) {fuel : Nat} (hfuel : k + 2 ≤ fuel)
    (input : List String) : run fuel e input = some ⟨⟨x, input, []⟩, answer⟩ := by
  induction k generalizing e fuel with
  | zero =>
    obtain ⟨fuel, rfl⟩ : ∃ f, fuel = f + 2 := ⟨fuel - 2, by omega⟩
    have hs : e.state = .running := h.running
    cases answer with
    | error error => exact run_of_step_error hs h.step (fuel + 1) input
    | ok u => rw [run_of_step_ok hs h.step, run_of_halted h.halted]
  | succ k ih =>
    obtain ⟨fuel, rfl⟩ : ∃ f, fuel = f + 1 := ⟨fuel - 1, by omega⟩
    obtain ⟨hs, hstep, hrest⟩ := succ_iff.1 h
    rw [run_of_step_ok hs hstep]
    exact ih hrest (by omega)

end StopsAfter

/-- **A run with a limit stops**, after no more instructions than the limit leaves it. -/
theorem exists_stopsAfter {n d : Nat} (hs : e.state = .running)
    (hn : e.settings.maxSteps = some n) (hd : n ≤ e.steps + d) :
    ∃ k ≤ d, ∃ x answer, StopsAfter k e x answer := by
  -- each instruction brings the run closer to its limit
  induction d generalizing e with
  | zero =>
    have hplan : e.plan = .stop (.ok ()) := plan_eq_stop_ok_iff.2 (.inl ⟨n, hn, by omega⟩)
    have hne : e.state ≠ .halted := by simp [hs]
    exact ⟨0, le_rfl, e.halt, .ok (), hs, step_of_stop hne hplan, rfl⟩
  | succ d ih =>
    have hne : e.state ≠ .halted := by simp [hs]
    cases hp : e.plan with
    | stop answer => exact ⟨0, Nat.zero_le _, e.halt, answer, hs, step_of_stop hne hp, rfl⟩
    | execute i op =>
      have hd' : n ≤ (e.executed i op).steps + d := by
        change n ≤ e.steps + 1 + d
        omega
      have hstep : e.step = (e.executed i op, .ok ()) := by rw [step_eq hne, hp]
      obtain ⟨k, hk, x, answer, hstops⟩ := ih (e := e.executed i op) hs hn hd'
      refine ⟨k + 1, by omega, x, answer, StopsAfter.succ_iff.2 ⟨hs, ?_, ?_⟩⟩
      · rw [hstep]
      · rw [hstep]
        exact hstops

open Debugger

/-- **A limit cuts a run short and does nothing else.** A run that is limited to `n` instructions
ends, and executes no more than `n`. If without a limit the run stops after fewer, it stops in
the same way in the same state. If not, it ends with success in the state that the run without
a limit has after `n` instructions, even if the next step would end or fail. Up to there it is
the run with any limit that is no lower. It does not wait for ever for a roll if the source
always has one more draw that can be used. -/
theorem run_limited (settings : Settings) (program : List Word) (random : G) (n : Nat) :
    let free := start { settings with maxSteps := none } program random
    let cut := start { settings with maxSteps := some n } program random
    ∃ x result,
      (∀ fuel input, n + 2 ≤ fuel → run fuel cut input = some ⟨⟨x, input, []⟩, result⟩) ∧
      x.state = .halted ∧ x.steps ≤ n ∧
      (∀ k < n, ∀ y answer, StopsAfter k free y answer →
        result = answer ∧ x = y.limited (some n) ∧ x.steps = k) ∧
      ((∀ k y answer, StopsAfter k free y answer → n ≤ k) →
        result = .ok () ∧ x = (free.after n).halt.limited (some n) ∧ (free.after n).steps = n) ∧
      (∀ m ≥ n,
        let longer := start { settings with maxSteps := some m } program random
        (∀ j ≤ n, cut.after j = (longer.after j).limited (some n)) ∧
          x = (longer.after n).halt.limited (some n)) ∧
      (Patient random → Endless random → ∀ pc i, result ≠ .error (.failed pc i .noRoll)) := by
  intro free cut
  obtain ⟨k, hk, x, result, hstops⟩ : ∃ k ≤ n, ∃ x result, StopsAfter k cut x result :=
    exists_stopsAfter rfl rfl (Nat.zero_add n).ge
  have hsteps : x.steps = k := hstops.steps.trans (Nat.zero_add k)
  -- a run with a limit that is no lower is the same run up to here
  have hlonger {limit : Option Nat} (hlimit : Allows limit n) {j : Nat} (hj : j ≤ n) :
      cut.after j = ((free.limited limit).after j).limited (some n) := by
    have hj' : 0 + j ≤ n := by omega
    exact after_limited (e := free.limited limit) (hlimit.mono hj') (allows_some hj')
  refine ⟨x, result, fun fuel input hfuel => hstops.run_eq (by omega) input, hstops.halted,
    by omega, fun j hj y answer hy => ?_, fun hlater => ?_, fun m hm => ⟨fun j hj => ?_, ?_⟩,
    fun hpatient hendless pc i hresult => ?_⟩
  · have hcut : StopsAfter j cut (y.limited (some n)) answer :=
      hy.limited (allows_none _) (allows_some (by change 0 + (j + 1) ≤ n; omega))
    obtain ⟨rfl, rfl, rfl⟩ := hstops.unique hcut
    exact ⟨rfl, rfl, hsteps⟩
  · -- if the limit were not the reason, the run would stop there without it
    have hkn : k = n := by
      by_contra hne
      have hfree : StopsAfter k free (x.limited none) result :=
        hstops.limited (allows_some (by change 0 + (k + 1) ≤ n; omega)) (allows_none _)
      exact hne (le_antisymm hk (hlater k _ _ hfree))
    subst hkn
    have hafter : cut.after k = (free.after k).limited (some k) := hlonger (allows_none k) le_rfl
    refine ⟨hstops.eq_ok rfl (Nat.zero_add k).ge, ?_, ?_⟩
    · rw [hstops.eq_halt le_rfl, hafter]
      rfl
    · have hcut : (cut.after k).steps = k := by
        rw [steps_after (by simp [hstops.running])]
        exact Nat.zero_add k
      rw [hafter] at hcut
      exact hcut
  · exact hlonger (allows_some hm) hj
  · rw [hstops.eq_halt hk, hlonger (allows_some hm) le_rfl]
    rfl
  · exact hstops.ne_noRoll hpatient hendless pc i hresult

/-- A roll and a store to an odd address, limited to two instructions, where the store fails, and
to one, where the run is cut short as the store is about to fail. -/
theorem run_limited_hold :
    let random : Replay := ⟨#[0x40000000], 0⟩
    let free := start {} [0x74004001, 0xac080001] random
    let error : StepError :=
      .failed 0x400004 (Mnemonic.hold.instruction [8, 1, 0]) (.address 1 .misaligned)
    Patient random ∧ Endless random ∧
      StopsAfter 1 free (free.after 1).halt (.error error) ∧
      run 4 (free.limited (some 2)) [] =
        some ⟨⟨(free.after 1).halt.limited (some 2), [], []⟩, .error error⟩ ∧
      run 3 (free.limited (some 1)) [] =
        some ⟨⟨(free.after 1).halt.limited (some 1), [], []⟩, .ok ()⟩ ∧
      ∃ result, run 3 (free.limited (some 1)) [] =
          some ⟨⟨(free.after 1).halt.limited (some 1), [], []⟩, result⟩ ∧
        ∀ pc i, result ≠ .error (.failed pc i .noRoll) := by
  intro random free error
  have hpatient : Patient random := Replay.patient (by decide)
  have hendless : Endless random := by
    intro n
    refine ⟨n, le_rfl, ?_⟩
    rw [Replay.drawAt_eq, show random.draws.size = 1 from rfl, Nat.mod_one]
    change ((#[0x40000000] : Array Word).getD 0 0).getLsbD 29 = false
    decide
  have hplan : (free.after 1).plan = .stop (.error error) := by decide +kernel
  have hstops : StopsAfter 1 free (free.after 1).halt (.error error) :=
    ⟨by decide +kernel, step_of_stop (by decide +kernel) hplan, rfl⟩
  obtain ⟨x, result, hrun, -, -, hends, -⟩ := run_limited {} [0x74004001, 0xac080001] random 2
  obtain ⟨rfl, rfl, -⟩ := hends 1 (by decide) _ _ hstops
  obtain ⟨x', result', hrun', -, -, -, hcut, -, hroll⟩ :=
    run_limited {} [0x74004001, 0xac080001] random 1
  obtain ⟨rfl, rfl, -⟩ := hcut fun k y answer hy => (hstops.unique hy).1.le
  exact ⟨hpatient, hendless, hstops, hrun 4 [] (by decide), hrun' 3 [] (by decide),
    _, hrun' 3 [] (by decide), hroll hpatient hendless⟩

end Emulator

end TetrisMachine
