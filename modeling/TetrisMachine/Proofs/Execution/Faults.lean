import TetrisMachine.Proofs.Execution.Decoded
import TetrisMachine.Proofs.Memory.Accesses
import TetrisMachine.Proofs.Random.Draws

/-!
# Why instructions fail

An instruction is judged by its key, then by the number of its operands, then by those of them
that it reads as registers, and only then by what it would do. Each check has one fault, and the
first check that fails gives it.

* `Mnemonic.registerPositions`: which operands are read as registers.
* `Operation.assemble_eq_error_iff`: the first of them that names none is reported.
* `Operation.fault?_eq_some_iff`: what an operation would do is judged by its exact result, by
  the address that it accesses and by the draws that are left.
* `Instruction.Fails`: the rules by which instructions fail.
* `Instruction.perform_fails_iff`: instructions fail by these rules and by no others.
-/

namespace TetrisMachine

/-! ### Operands that name registers -/

/-- Whether a word names a register. -/
def NamesRegister (w : Word) : Prop :=
  0 ≤ w.toInt ∧ w.toInt ≤ 33

/-- The word is the first in a list that names no register. -/
def FirstInvalid (words : List Word) (w : Word) : Prop :=
  ∃ before after, words = before ++ w :: after ∧ (∀ v ∈ before, NamesRegister v) ∧ ¬ NamesRegister w

/-- The positions of the operands that are read as registers. The third operand of `rotate` is
not read. -/
def Mnemonic.registerPositions : Mnemonic → List Nat
  | attack | stack | garbage => [0, 1, 2]
  | harddrop | ghostpiece | slowgravity | delay | lineclear | nonclear | rotate => [0, 1]
  | hold | next => [0, 2]
  | drop => [0]
  | shift | downstack | topout | allclear | viewboard | tetris | combo => []

/-- The operands that are read as registers, in their order. -/
def Mnemonic.registerWords (m : Mnemonic) (operands : List Word) : List Word :=
  m.registerPositions.filterMap (operands[·]?)

section

variable {v w : Word} {words operands : List Word} {m : Mnemonic} {fault : Fault}

theorem namesRegister_iff_toNat_lt : NamesRegister w ↔ w.toNat < 34 := by
  have hcond := BitVec.toInt_eq_toNat_cond w
  have hlt := w.isLt
  unfold NamesRegister
  split at hcond <;> omega

theorem registerOperand_eq_error_iff :
    registerOperand w = .error fault ↔ ¬ NamesRegister w ∧ fault = .invalidRegister w := by
  rw [namesRegister_iff_toNat_lt, registerOperand, Register.ofWord?]
  by_cases h : w.toNat < 34
  · simp [h]
  · simp [h, eq_comm]

theorem namesRegister_of_registerOperand {r : Register} (h : registerOperand w = .ok r) :
    NamesRegister w := by
  by_contra hne
  have herror := registerOperand_eq_error_iff.2 ⟨hne, rfl⟩
  rw [h] at herror
  cases herror

theorem not_firstInvalid_nil : ¬ FirstInvalid [] w := by
  rintro ⟨before, after, h, -⟩
  cases before <;> cases h

/-- A word that names a register is passed over. -/
theorem firstInvalid_cons (hv : NamesRegister v) :
    FirstInvalid (v :: words) w ↔ FirstInvalid words w := by
  constructor
  · rintro ⟨before, after, h, hbefore, hw⟩
    cases before with
    | nil =>
      cases h
      exact absurd hv hw
    | cons x before =>
      cases h
      exact ⟨before, after, rfl, fun u hu => hbefore u (.tail _ hu), hw⟩
  · rintro ⟨before, after, rfl, hbefore, hw⟩
    exact ⟨v :: before, after, rfl, List.forall_mem_cons.2 ⟨hv, hbefore⟩, hw⟩

theorem firstInvalid_cons_of_not (hv : ¬ NamesRegister v) :
    FirstInvalid (v :: words) w ↔ w = v := by
  constructor
  · rintro ⟨before, after, h, hbefore, -⟩
    cases before with
    | nil =>
      cases h
      rfl
    | cons x before =>
      cases h
      exact absurd (hbefore v (.head _)) hv
  · rintro rfl
    exact ⟨[], words, rfl, fun _ hu => absurd hu List.not_mem_nil, hv⟩

/-- **Reading words as registers fails at the first one that names none.** -/
theorem mapM_registerOperand_eq_error_iff :
    words.mapM registerOperand = .error fault ↔
      ∃ w, FirstInvalid words w ∧ fault = .invalidRegister w := by
  induction words with
  | nil => simp [not_firstInvalid_nil, pure, Except.pure]
  | cons v words ih =>
    rw [List.mapM_cons]
    cases hv : registerOperand v with
    | error cause =>
      obtain ⟨hne, rfl⟩ := registerOperand_eq_error_iff.1 hv
      simp [firstInvalid_cons_of_not hne, bind, Except.bind, eq_comm]
    | ok r =>
      simp only [firstInvalid_cons (namesRegister_of_registerOperand hv), ← ih]
      cases words.mapM registerOperand <;> simp [bind, Except.bind, pure, Except.pure]

theorem Mnemonic.lt_of_mem_registerPositions {k : Nat} (h : k ∈ m.registerPositions) :
    k < m.operandCount := by
  revert k
  cases m <;> decide

/-- The words are where the positions say. -/
theorem Mnemonic.registerWords_eq (h : operands.length = m.operandCount) :
    m.registerWords operands = m.registerPositions.map (operands.getD · 0) := by
  rw [registerWords, List.filterMap_eq_map_iff_forall_eq_some]
  intro k hk
  have hlt : k < operands.length := h ▸ lt_of_mem_registerPositions hk
  rw [List.getD_eq_getElem?_getD, List.getElem?_eq_getElem hlt, Option.getD_some]

/-- **The first operand that should name a register and does not is reported.** -/
theorem Operation.assemble_eq_error_iff {word : Nat → Word} :
    assemble m word = .error fault ↔
      ∃ w, FirstInvalid (m.registerPositions.map word) w ∧ fault = .invalidRegister w := by
  rw [← mapM_registerOperand_eq_error_iff]
  unfold assemble Mnemonic.registerPositions
  -- by the operands that are read as registers, each of which is one or is not
  cases m
  all_goals simp only [List.map_cons, List.map_nil, List.mapM_cons, List.mapM_nil]
  case downstack | topout | allclear | viewboard | tetris | shift | combo =>
    simp [pure, Except.pure]
  case drop => cases registerOperand (word 0) <;> simp [bind, Except.bind, pure, Except.pure]
  case harddrop | ghostpiece | slowgravity | delay | lineclear | nonclear | rotate =>
    cases registerOperand (word 0) <;> cases registerOperand (word 1) <;>
      simp [bind, Except.bind, pure, Except.pure]
  case hold | next =>
    cases registerOperand (word 0) <;> cases registerOperand (word 2) <;>
      simp [bind, Except.bind, pure, Except.pure]
  case attack | stack | garbage =>
    cases registerOperand (word 0) <;> cases registerOperand (word 1) <;>
      cases registerOperand (word 2) <;> simp [bind, Except.bind, pure, Except.pure]

end

/-! ### Faults of operations -/

namespace Operation

variable {G : Type}

/-- The exact result of an operation that traps. -/
def exactResult? (f : RegisterFile) : Operation → Option Int
  | harddrop _ s imm => some ((f.read s).toInt + (signExtend16 imm).toInt)
  | stack _ a b => some ((f.read a).toInt + (f.read b).toInt)
  | garbage _ a b => some ((f.read a).toInt - (f.read b).toInt)
  | _ => none

variable [RandomSource G]

open RandomSource Roll

/-- **Why an operation fails**: its exact result cannot be held, memory refuses its address, or
none of the draws that a roll looks at can be used. -/
theorem fault?_eq_some_iff {op : Operation} {c : Cpu G} {fault : Fault} :
    op.fault? c = some fault ↔
      (∃ n, op.exactResult? c.registers = some n ∧ ¬ InSignedRange n ∧
        fault = .arithmeticOverflow) ∨
      (∃ a cause, op.address? c = some a ∧ c.memory.fault? a = some cause ∧
        fault = .address a cause) ∨
      op.rolls = true ∧ (∀ k < patience c.random, ¬ Accepts (drawAt c.random k)) ∧
        fault = .noRoll := by
  rw [← roll_eq_none_iff]
  cases op with
  | harddrop | stack =>
    simp only [fault?, isSome_exactSum, exactResult?, address?, rolls]
    split <;> simp_all [eq_comm]
  | garbage =>
    simp only [fault?, isSome_exactDifference, exactResult?, address?, rolls]
    split <;> simp_all [eq_comm]
  | hold | next => simp [fault?, exactResult?, address?, rolls, eq_comm]
  | drop =>
    simp only [fault?, exactResult?, address?, rolls]
    cases roll c.random <;> simp [eq_comm]
  | _ => simp [fault?, exactResult?, address?, rolls]

end Operation

/-! ### Faults of instructions -/

namespace Instruction

variable {G D : Type} {i : Instruction} {m : Mnemonic} {op : Operation} {fault : Fault}

open RandomSource Roll in
/-- The rules by which instructions fail. -/
inductive Fails [RandomSource G] (i : Instruction) (c : Cpu G) : Fault → Prop
  /-- The key is that of no instruction. -/
  | unknownInstruction : (∀ m : Mnemonic, m.descriptor.key ≠ i.key) →
    Fails i c (.unknownInstruction i.key)
  /-- The operands are not as many as the template has fields. -/
  | operandCount {m : Mnemonic} : m.descriptor.key = i.key →
    i.operands.length ≠ m.operandCount →
      Fails i c (.operandCount m m.operandCount i.operands.length)
  /-- An operand that is read as a register names none, and none before it does. -/
  | invalidRegister {m : Mnemonic} {w : Word} : m.descriptor.key = i.key →
    i.operands.length = m.operandCount → FirstInvalid (m.registerWords i.operands) w →
      Fails i c (.invalidRegister w)
  /-- The exact result leaves the signed range. -/
  | arithmeticOverflow {op : Operation} {n : Int} : i.Denotes op →
    op.exactResult? c.registers = some n → ¬ InSignedRange n → Fails i c .arithmeticOverflow
  /-- The address is not aligned. -/
  | misaligned {op : Operation} {a : Word} : i.Denotes op → op.address? c = some a →
    a.toNat % 4 ≠ 0 → Fails i c (.address a .misaligned)
  /-- The address is aligned and lies outside the segment. -/
  | unmapped {op : Operation} {a : Word} : i.Denotes op → op.address? c = some a →
    a.toNat % 4 = 0 → ¬ Memory.Mapped c.memory.base c.memory.length a →
      Fails i c (.address a .unmapped)
  /-- No draw in reach can be used. -/
  | noRoll {op : Operation} : i.Denotes op → op.rolls = true →
    (∀ k < patience c.random, ¬ Accepts (drawAt c.random k)) → Fails i c .noRoll

section

variable [RandomSource G] {c : Cpu G}

theorem Fails.fault?_eq (h : i.Fails c fault) : i.fault? c = some fault := by
  have hdenotes {op : Operation} (hop : i.Denotes op) : i.fault? c = op.fault? c := by
    rw [fault?, operation_eq_ok_iff.2 hop]
  cases h with
  | unknownInstruction hkey => rw [fault?, operation_of_unknown hkey]
  | operandCount hkey hcount =>
    rw [fault?, operation_of_key hkey, Operation.ofOperands, if_pos hcount]
  | invalidRegister hkey hcount hfirst =>
    rw [Mnemonic.registerWords_eq hcount] at hfirst
    rw [fault?, operation_of_key hkey, Operation.ofOperands, if_neg (not_not_intro hcount),
      Operation.assemble_eq_error_iff.2 ⟨_, hfirst, rfl⟩]
  | arithmeticOverflow hop hn hrange =>
    rw [hdenotes hop, Operation.fault?_eq_some_iff]
    exact .inl ⟨_, hn, hrange, rfl⟩
  | misaligned hop ha haligned =>
    rw [hdenotes hop, Operation.fault?_eq_some_iff]
    exact .inr (.inl ⟨_, _, ha, Memory.fault?_eq_misaligned_iff.2 haligned, rfl⟩)
  | unmapped hop ha haligned hmapped =>
    rw [hdenotes hop, Operation.fault?_eq_some_iff]
    exact .inr (.inl ⟨_, _, ha, Memory.fault?_eq_unmapped_iff.2 ⟨haligned, hmapped⟩, rfl⟩)
  | noRoll hop hrolls hnone =>
    rw [hdenotes hop, Operation.fault?_eq_some_iff]
    exact .inr (.inr ⟨hrolls, hnone, rfl⟩)

/-- What an operation fails by is a rule for the instruction that denotes it. -/
theorem Denotes.fails (hop : i.Denotes op) (h : op.fault? c = some fault) : i.Fails c fault := by
  rcases Operation.fault?_eq_some_iff.1 h with
    ⟨n, hn, hrange, rfl⟩ | ⟨a, cause, ha, hcause, rfl⟩ | ⟨hrolls, hnone, rfl⟩
  · exact .arithmeticOverflow hop hn hrange
  · cases cause with
    | misaligned => exact .misaligned hop ha (Memory.fault?_eq_misaligned_iff.1 hcause)
    | unmapped =>
      obtain ⟨haligned, hmapped⟩ := Memory.fault?_eq_unmapped_iff.1 hcause
      exact .unmapped hop ha haligned hmapped
  · exact .noRoll hop hrolls hnone

theorem fails_of_fault?_eq (h : i.fault? c = some fault) : i.Fails c fault := by
  cases hop : i.operation with
  | ok op =>
    rw [fault?, hop] at h
    exact (operation_eq_ok_iff.1 hop).fails h
  | error cause =>
    rw [fault?, hop] at h
    cases h
    by_cases hkey : ∃ m : Mnemonic, m.descriptor.key = i.key
    · obtain ⟨m, hm⟩ := hkey
      rw [operation_of_key hm, Operation.ofOperands] at hop
      by_cases hcount : i.operands.length = m.operandCount
      · rw [if_neg (not_not_intro hcount), Operation.assemble_eq_error_iff,
          ← Mnemonic.registerWords_eq hcount] at hop
        obtain ⟨w, hfirst, rfl⟩ := hop
        exact .invalidRegister hm hcount hfirst
      · rw [if_pos hcount] at hop
        cases hop
        exact .operandCount hm hcount
    · rw [operation_of_unknown (not_exists.1 hkey)] at hop
      cases hop
      exact .unknownInstruction (not_exists.1 hkey)

/-- **An instruction has the faults that the rules give it.** -/
theorem fault?_eq_some_iff : i.fault? c = some fault ↔ i.Fails c fault :=
  ⟨fails_of_fault?_eq, Fails.fault?_eq⟩

open Roll in
/-- **Instructions fail by the rules and by no others.** Whatever the key and the operands, an
instruction is refused for its key if no instruction has it, else for the number of its operands
if it is not that of its template, else for the first register operand that names no register;
else it fails if its exact result leaves the signed range, or with its effective address if that
is misaligned or unmapped. It does nothing if it fails, and in every other case it succeeds. A
`drop` succeeds if the source does not give up on a draw that can be used. -/
theorem perform_fails_iff (δ : Delegate D) (i : Instruction) (c : Cpu G) (d : D) :
    (∀ fault s', (i.perform δ).run (c, d) = .error fault s' ↔ i.Fails c fault ∧ s' = (c, d)) ∧
    ((∃ s', (i.perform δ).run (c, d) = .ok () s') ↔ ∀ fault, ¬ i.Fails c fault) ∧
    (Patient c.random → (∃ k, Accepts (drawAt c.random k)) → ¬ i.Fails c .noRoll) := by
  have herror (fault : Fault) (s' : Cpu G × D) :
      (i.perform δ).run (c, d) = .error fault s' ↔ i.Fails c fault ∧ s' = (c, d) := by
    rw [perform_eq_error_iff, fault?_eq_some_iff]
  refine ⟨herror, ⟨?_, ?_⟩, ?_⟩
  · rintro ⟨s', hok⟩ fault hfails
    rw [(herror fault (c, d)).2 ⟨hfails, rfl⟩] at hok
    cases hok
  · intro hnone
    cases hrun : (i.perform δ).run (c, d) with
    | ok _ s' => exact ⟨s', rfl⟩
    | error fault s' => exact absurd ((herror fault s').1 hrun).1 (hnone fault)
  · rintro hpatient ⟨k, hk⟩ hfails
    have hroll := hpatient.isSome_roll (Nat.zero_le k) ((accepts_iff _).1 hk)
    cases hfails with
    | noRoll _ _ hnone =>
      rw [show sourceAfter c.random 0 = c.random from rfl, roll_eq_none_iff.2 hnone] at hroll
      cases hroll

open Roll in
/-- Two operands that name no register, before one that is not read, and a roll that passes over
the first draw. -/
theorem perform_fails_rotate :
    let c : Cpu Replay := ⟨.zero, .zero 0 64, [], .ofList [0x20000000, 0x40000000]⟩
    let rotate := Mnemonic.rotate.instruction [34, -1, 99]
    let drop := Mnemonic.drop.instruction [8]
    (rotate.perform .counter).run (c, 4) = .error (.invalidRegister 34) (c, 4) ∧
      rotate.Fails c (.invalidRegister 34) ∧
      Patient c.random ∧ Accepts (drawAt c.random 1) ∧ ¬ drop.Fails c .noRoll ∧
      ∃ s', (drop.perform .counter).run (c, 4) = .ok () s' := by
  intro c rotate drop
  have hrun : (rotate.perform .counter).run (c, 4) = .error (.invalidRegister 34) (c, 4) := rfl
  obtain ⟨herror, -, -⟩ := perform_fails_iff .counter rotate c (4 : Word)
  obtain ⟨-, hok, hroll⟩ := perform_fails_iff .counter drop c (4 : Word)
  have hpatient : Patient c.random := Replay.patient (by decide)
  have haccepts : Accepts (drawAt c.random 1) := by decide +kernel
  have hnone : drop.fault? c = none := by decide +kernel
  refine ⟨hrun, ((herror _ _).1 hrun).1, hpatient, haccepts, hroll hpatient ⟨1, haccepts⟩,
    hok.2 fun fault hfails => ?_⟩
  rw [hfails.fault?_eq] at hnone
  cases hnone

end

end Instruction

end TetrisMachine
