import TetrisMachine.Proofs.Execution.Atomicity
import TetrisMachine.Proofs.Execution.Footprint
import TetrisMachine.Proofs.InstructionSet.Resolved
import TetrisMachine.Proofs.Random.Draws

/-!
# What decoded instructions can do

A template has a field for every operand that its instruction reads, and a field of 5
bits for every register. So a decoded instruction is never refused for its key, for the
number of its operands or for a register, and it fails only in arithmetic or in memory.

* `Operation.assemble_congr`: an operation is read from as many operands as its template
  has, and from nothing past them.
* `Operation.fault?_eq_some`: why operations fail.
* `lt_of_mem_registerOperands`: the registers that a decoded instruction names.
* `perform_of_resolve`: what a decoded instruction can do.
-/

namespace TetrisMachine

variable {G D : Type}

namespace Operation

/-- **No operand past the last one is read.** -/
theorem assemble_congr {m : Mnemonic} {word word' : Nat → Word}
    (h : ∀ k < m.operandCount, word' k = word k) : assemble m word' = assemble m word := by
  cases m with
  | downstack | topout | allclear | viewboard | tetris => rfl
  | shift | combo | drop =>
    have h0 : word' 0 = word 0 := h 0 (by decide)
    simp only [assemble, h0]
  | delay | rotate =>
    have h0 : word' 0 = word 0 := h 0 (by decide)
    have h1 : word' 1 = word 1 := h 1 (by decide)
    simp only [assemble, h0, h1]
  | harddrop | attack | stack | garbage | hold | next | lineclear | nonclear | ghostpiece
    | slowgravity =>
    have h0 : word' 0 = word 0 := h 0 (by decide)
    have h1 : word' 1 = word 1 := h 1 (by decide)
    have h2 : word' 2 = word 2 := h 2 (by decide)
    simp only [assemble, h0, h1, h2]

/-- The registers that the operands of an operation name. -/
def registerOperands : Operation → List Register
  | harddrop d s _ | ghostpiece d s _ | slowgravity d s _ => [d, s]
  | attack d a b | stack d a b | garbage d a b => [d, a, b]
  | delay a b | lineclear a b _ | nonclear a b _ | rotate a b => [a, b]
  | hold v _ base | next v _ base => [v, base]
  | drop d => [d]
  | shift _ | downstack | topout | allclear | viewboard | tetris | combo _ => []

/-- The faults of arithmetic and of memory, by the operations that may have them. -/
def Raises (fault : Fault) : Operation → Prop
  | harddrop .. | stack .. | garbage .. => fault = .arithmeticOverflow
  | hold .. | next .. => ∃ address cause, fault = .address address cause
  | _ => False

open RandomSource Roll in
/-- **An operation fails in arithmetic or in memory**, or it is a roll that finds no draw
it can use. -/
theorem fault?_eq_some [RandomSource G] {op : Operation} {c : Cpu G} {fault : Fault}
    (h : op.fault? c = some fault) :
    op.Raises fault ∨ fault = .noRoll ∧ op.rolls = true ∧
      ∀ k < patience c.random, ¬ Accepts (drawAt c.random k) := by
  cases op with
  | harddrop | stack | garbage =>
    simp only [fault?] at h
    split at h
    · cases h
    · cases h
      exact .inl rfl
  | hold v offset base | next d offset base =>
    obtain ⟨cause, -, rfl⟩ := Option.map_eq_some_iff.1 h
    exact .inl ⟨_, cause, rfl⟩
  | drop d =>
    simp only [fault?] at h
    split at h
    · cases h
    · next hr =>
      cases h
      exact .inr ⟨rfl, rfl, roll_eq_none_iff.1 (by simpa using hr)⟩
  | _ => cases h

/-- A register operand stands in a field of 5 bits. -/
theorem exists_field_of_mem_registerOperands {op : Operation} {operands : List Word}
    {r : Register} (h : op.ReadFrom operands) (hr : r ∈ op.registerOperands) :
    ∃ f : Field, f.width = 5 ∧ (f, r.toWord) ∈ op.mnemonic.template.fields.zip operands := by
  cases op with
  | harddrop | ghostpiece | slowgravity | delay | lineclear | nonclear =>
    cases h
    simp only [registerOperands, List.mem_cons, List.not_mem_nil, or_false] at hr
    rcases hr with rfl | rfl
    · exact ⟨_, rfl, .head _⟩
    · exact ⟨_, rfl, .tail _ (.head _)⟩
  | rotate =>
    obtain ⟨unused, rfl⟩ := h
    simp only [registerOperands, List.mem_cons, List.not_mem_nil, or_false] at hr
    rcases hr with rfl | rfl
    · exact ⟨_, rfl, .head _⟩
    · exact ⟨_, rfl, .tail _ (.head _)⟩
  | attack | stack | garbage =>
    cases h
    simp only [registerOperands, List.mem_cons, List.not_mem_nil, or_false] at hr
    rcases hr with rfl | rfl | rfl
    · exact ⟨_, rfl, .head _⟩
    · exact ⟨_, rfl, .tail _ (.head _)⟩
    · exact ⟨_, rfl, .tail _ (.tail _ (.head _))⟩
  | hold | next =>
    cases h
    simp only [registerOperands, List.mem_cons, List.not_mem_nil, or_false] at hr
    rcases hr with rfl | rfl
    · exact ⟨_, rfl, .head _⟩
    · exact ⟨_, rfl, .tail _ (.tail _ (.head _))⟩
  | drop =>
    cases h
    cases List.mem_singleton.1 hr
    exact ⟨_, rfl, .head _⟩
  | shift | downstack | topout | allclear | viewboard | tetris | combo => cases hr

/-- The registers that an operation may write are those of its operands and those of the
board, and for `attack` and `delay` also `hi` and `lo`. -/
theorem mem_registerOperands_of_mem_writes {op : Operation} {r : Register} (h : r ∈ op.writes) :
    r ∈ op.registerOperands ∨ r ∈ Board.registers ∨
      (r = .hi ∨ r = .lo) ∧ (op.mnemonic = .attack ∨ op.mnemonic = .delay) := by
  cases op with
  | harddrop | ghostpiece | slowgravity | stack | garbage | next | drop =>
    cases List.mem_singleton.1 h
    exact .inl (.head _)
  | rotate => exact .inl h
  | attack d a b =>
    rcases List.mem_cons.1 h with rfl | h
    · exact .inl (.head _)
    · exact .inr (.inr ⟨by simpa using h, .inl rfl⟩)
  | delay => exact .inr (.inr ⟨by simpa [writes] using h, .inr rfl⟩)
  | combo => exact .inr (.inl (List.mem_append_left _ h))
  | allclear => exact .inr (.inl (List.mem_append_right _ h))
  | downstack | tetris | topout => exact .inr (.inl h)
  | hold | lineclear | nonclear | viewboard | shift => cases h

end Operation

/-- The board lies in the general registers. -/
theorem Board.lt_of_mem_registers : ∀ r ∈ registers, r.index.val < 32 := by
  decide

variable {w : Word} {i : Instruction} {op : Operation}

/-- **The registers that a decoded instruction names are general registers.** -/
theorem lt_of_mem_registerOperands (h : instructionSet.resolve w = .ok i)
    (hop : i.operation = .ok op) : ∀ r ∈ op.registerOperands, r.index.val < 32 := by
  intro r hr
  obtain ⟨op', hop', -, hread, henc⟩ := exists_operation_of_resolve h
  cases hop.symm.trans hop'
  obtain ⟨-, hrange⟩ := exists_encode_iff.1 ⟨w, henc⟩
  obtain ⟨f, hf, hmem⟩ := Operation.exists_field_of_mem_registerOperands hread hr
  have hle : 0 ≤ r.toWord.toInt ∧ r.toWord.toInt ≤ 31 := by
    have h5 := hrange _ hmem
    rw [Field.InRange, hf] at h5
    exact h5
  have hnat : r.toWord.toInt = r.index.val := by
    rw [toInt_eq_toNat_of_nonneg hle.1, Register.toNat_toWord]
  omega

open RandomSource Roll in
/-- **What a decoded instruction can do.** Its operands are as many as its template has
fields, nothing past them is read, and those that name registers name general ones. It is
never refused for its key, for its operands or for a register: it fails in arithmetic or
in memory only, where a roll that goes on for ever, because none of the draws in its reach
can be used, counts as a failure. It changes general registers, and `hi` and `lo` for
`attack` and `delay`. -/
theorem perform_of_resolve [RandomSource G] (h : instructionSet.resolve w = .ok i) :
    ∃ op, i.Denotes op ∧ instructionSet.decode w = .ok op.mnemonic.descriptor ∧
      i.operands.length = op.mnemonic.operandCount ∧
      (∀ word : Nat → Word, (∀ k (hk : k < i.operands.length), word k = i.operands[k]) →
        Operation.assemble op.mnemonic word = .ok op) ∧
      (∀ r ∈ op.registerOperands, r.index.val < 32) ∧
      ∀ (δ : Delegate D) (s s' : Cpu G × D),
        (∀ fault, (i.perform δ).run s = .error fault s' →
          op.Raises fault ∨ fault = .noRoll ∧ op.rolls = true ∧
            ∀ k < patience s.1.random, ¬ Accepts (drawAt s.1.random k)) ∧
        ((i.perform δ).run s = .ok () s' →
          ∀ r, s'.1.registers.read r ≠ s.1.registers.read r → r.index.val < 32 ∨
            (r = .hi ∨ r = .lo) ∧ (op.mnemonic = .attack ∨ op.mnemonic = .delay)) := by
  obtain ⟨op, hop, hdecode, hread, -⟩ := exists_operation_of_resolve h
  have hlength : i.operands.length = op.mnemonic.operandCount :=
    Operation.length_of_readFrom hread
  have hgeneral : ∀ r ∈ op.registerOperands, r.index.val < 32 := lt_of_mem_registerOperands h hop
  refine ⟨op, Instruction.operation_eq_ok_iff.1 hop, hdecode, hlength, fun word hword => ?_,
    hgeneral, fun δ s s' => ⟨?_, ?_⟩⟩
  · have hassemble : Operation.assemble op.mnemonic (i.operands.getD · 0) = .ok op := by
      rw [← Operation.ofOperands_of_readFrom hread, Operation.ofOperands,
        if_neg (not_not_intro hlength)]
    rw [← hassemble]
    refine Operation.assemble_congr fun k hk => ?_
    rw [← hlength] at hk
    rw [hword k hk, List.getD_eq_getElem?_getD, List.getElem?_eq_getElem hk, Option.getD_some]
  · intro fault hfault
    obtain ⟨hfault, -⟩ := Instruction.perform_eq_error_iff.1 hfault
    rw [Instruction.fault?, hop] at hfault
    exact Operation.fault?_eq_some hfault
  · intro hrun r hne
    obtain ⟨op', hop', -, rfl⟩ := Instruction.perform_eq_ok_iff.1 hrun
    cases hop.symm.trans hop'
    have hwrites : r ∈ op.writes := by
      by_contra hr
      exact hne (Operation.read_registers_of_notMem_writes s.1 hr)
    rcases Operation.mem_registerOperands_of_mem_writes hwrites with hr | hr | hr
    · exact .inl (hgeneral r hr)
    · exact .inl (Board.lt_of_mem_registers r hr)
    · exact .inr hr

/-- A load from an address that is not aligned. -/
theorem perform_of_resolve_next :
    let i := Mnemonic.next.instruction [9, 1, 8]
    let c : Cpu Replay := ⟨.zero, .zero 0 64, [], ⟨#[], 0⟩⟩
    instructionSet.resolve 0x8d090001 = .ok i ∧
      (i.perform .counter).run (c, 4) = .error (.address 1 .misaligned) (c, 4) ∧
      ∃ op, i.Denotes op ∧ op.Raises (.address 1 .misaligned) ∧
        ∀ r ∈ op.registerOperands, r.index.val < 32 := by
  intro i c
  have h : instructionSet.resolve 0x8d090001 = .ok i := by decide +kernel
  have hrun : (i.perform .counter).run (c, 4) = .error (.address 1 .misaligned) (c, 4) := rfl
  obtain ⟨op, hop, -, -, -, hgeneral, hperform⟩ := perform_of_resolve (G := Replay) (D := Word) h
  obtain ⟨hfault, -⟩ := hperform .counter (c, 4) (c, 4)
  rcases hfault _ hrun with hraises | ⟨hroll, -⟩
  · exact ⟨h, hrun, op, hop, hraises, hgeneral⟩
  · cases hroll

end TetrisMachine
