import TetrisMachine.Proofs.Execution.Atomicity
import TetrisMachine.Proofs.InstructionSet.Operands
import TetrisMachine.Proofs.InstructionSet.RoundTrip

/-!
# The spelling of immediates

An immediate of 16 bits is spelled as a signed or as an unsigned number. Decoding
gives the signed one, while an instruction that is built from its operands keeps the
one it was given. Arithmetic and memory instructions read the low 16 bits and do not
tell the spellings apart. A branch passes its offset on as it is, so that a taken
branch with an unsigned offset goes elsewhere than its encoding does.

* `Operation.update_normalize`, `Operation.transfer_normalize`: what the spelling
  changes.
* `Mnemonic.perform_resolve_iff`: an instruction does what its encoding does, unless it
  is such a branch.
-/

namespace TetrisMachine

variable {G D : Type}

/-- The operation with its immediate sign-extended. -/
def Operation.normalize : Operation → Operation
  | harddrop d s imm => harddrop d s (signExtend16 imm)
  | hold v offset base => hold v (signExtend16 offset) base
  | next d offset base => next d (signExtend16 offset) base
  | lineclear a b offset => lineclear a b (signExtend16 offset)
  | nonclear a b offset => nonclear a b (signExtend16 offset)
  | ghostpiece d s imm => ghostpiece d s (signExtend16 imm)
  | slowgravity d s imm => slowgravity d s (signExtend16 imm)
  | combo imm => combo (signExtend16 imm)
  | op => op

/-- The transfer with its offset sign-extended. -/
def Transfer.normalize : Transfer → Transfer
  | branch offset => branch (signExtend16 offset)
  | transfer => transfer

theorem Transfer.normalize_eq_self {t : Transfer}
    (h : ∀ offset, t = .branch offset → signExtend16 offset = offset) : t.normalize = t := by
  cases t with
  | branch offset => rw [normalize, h offset rfl]
  | advance | jump => rfl

namespace Operation

theorem mnemonic_normalize (op : Operation) : op.normalize.mnemonic = op.mnemonic := by
  cases op <;> rfl

/-- The canonical readings of the operands are those of the normal operation. -/
theorem readFrom_normalize {op : Operation} {operands : List Word} (h : op.ReadFrom operands) :
    op.normalize.ReadFrom (op.mnemonic.template.fields.zipWith Field.canonical operands) := by
  cases op
  case rotate =>
    obtain ⟨unused, rfl⟩ := h
    exact ⟨unused, rfl⟩
  all_goals
    cases h
    rfl

theorem address_signExtend16 (c : Cpu G) (offset : Word) (base : Register) :
    c.address (signExtend16 offset) base = c.address offset base := by
  rw [Cpu.address, Cpu.address, signExtend16_signExtend16]

variable (c : Cpu G) (op : Operation)

theorem fault?_normalize [RandomSource G] : op.normalize.fault? c = op.fault? c := by
  cases op
  case harddrop => simp only [normalize, fault?, signExtend16_signExtend16]
  case hold | next => simp only [normalize, fault?, address_signExtend16]
  all_goals rfl

/-- The spelling of an immediate does not change the state. -/
theorem update_normalize [RandomSource G] : op.normalize.update c = op.update c := by
  cases op
  case harddrop | ghostpiece | slowgravity | combo =>
    simp only [normalize, update, registers, memory, text?, random, signExtend16_signExtend16]
  case hold | next =>
    simp only [normalize, update, registers, memory, text?, random, address_signExtend16]
  all_goals rfl

/-- The spelling of an offset is passed on. -/
theorem transfer_normalize (pc : Word) :
    op.normalize.transfer c pc = (op.transfer c pc).normalize := by
  cases op
  case lineclear a b offset | nonclear a b offset =>
    simp only [normalize, transfer]
    split <;> rfl
  all_goals rfl

/-- A taken branch does nothing else. -/
theorem quiet_of_transfer_eq_branch [RandomSource G] {c : Cpu G} {op : Operation}
    {pc offset : Word} (h : op.transfer c pc = .branch offset) :
    op.fault? c = none ∧ op.update c = c := by
  cases op
  case lineclear | nonclear => exact ⟨rfl, rfl⟩
  all_goals cases h

end Operation

namespace Mnemonic

/-- A branch that is taken, by an offset that is spelled as an unsigned number. -/
def BranchesUnsigned (m : Mnemonic) (operands : List Word) (offset : Word) (f : RegisterFile) :
    Prop :=
  ∃ a b : Register, operands = [a.toWord, b.toWord, offset] ∧ 0x8000 ≤ offset.toInt ∧
    (m = .lineclear ∧ f.read a = f.read b ∨ m = .nonclear ∧ f.read a ≠ f.read b)

variable {m : Mnemonic} {operands : List Word} {w : Word} {op : Operation} {i : Instruction}

/-- Decoding the encoding of an instruction normalizes its operation. -/
theorem exists_operation_of_encode (h : m.encode operands = .ok w)
    (hi : instructionSet.resolve w = .ok i) :
    ∃ op, Operation.ofOperands m operands = .ok op ∧ i.operation = .ok op.normalize := by
  obtain ⟨op, hop⟩ := exists_ofOperands_of_encode h
  obtain ⟨rfl, hread⟩ := Operation.ofOperands_eq_ok_iff.1 hop
  refine ⟨op, hop, ?_⟩
  cases (resolve_of_encode h).symm.trans hi
  rw [operation_instruction, Operation.ofOperands_eq_ok_iff]
  exact ⟨op.mnemonic_normalize, Operation.readFrom_normalize hread⟩

/-- The third operand of a branch that can be encoded is at least the least signed
number of 16 bits. -/
theorem le_toInt_of_encode {a b offset : Word} (hm : m = .lineclear ∨ m = .nonclear)
    (h : m.encode [a, b, offset] = .ok w) : -0x8000 ≤ offset.toInt := by
  obtain ⟨-, hfits, -⟩ := Template.encode_eq_ok_iff.1 h
  rcases hm with rfl | rfl
  · exact (hfits _ (.tail _ (.tail _ (.head _)))).1
  · exact (hfits _ (.tail _ (.tail _ (.head _)))).1

theorem BranchesUnsigned.signExtend16_ne {offset : Word} {f : RegisterFile}
    (hu : m.BranchesUnsigned operands offset f) : signExtend16 offset ≠ offset := by
  obtain ⟨-, -, -, hlarge, -⟩ := hu
  rw [ne_eq, signExtend16_eq_self_iff]
  omega

/-- The branches that are taken by an unsigned offset are those that decoding sends
elsewhere. -/
theorem branchesUnsigned_iff (h : m.encode operands = .ok w)
    (hop : Operation.ofOperands m operands = .ok op) (c : Cpu G) (pc offset : Word) :
    m.BranchesUnsigned operands offset c.registers ↔
      op.transfer c pc = .branch offset ∧ signExtend16 offset ≠ offset := by
  constructor
  · -- such operands are read as the branch that is taken
    intro hu
    refine ⟨?_, hu.signExtend16_ne⟩
    obtain ⟨a, b, rfl, -, hm⟩ := hu
    rcases hm with ⟨rfl, hab⟩ | ⟨rfl, hab⟩
    · have hb : Operation.ofOperands .lineclear [a.toWord, b.toWord, offset] =
          .ok (.lineclear a b offset) := Operation.ofOperands_eq_ok_iff.2 ⟨rfl, rfl⟩
      cases hop.symm.trans hb
      exact if_pos hab
    · have hb : Operation.ofOperands .nonclear [a.toWord, b.toWord, offset] =
          .ok (.nonclear a b offset) := Operation.ofOperands_eq_ok_iff.2 ⟨rfl, rfl⟩
      cases hop.symm.trans hb
      exact if_neg hab
  · rintro ⟨ht, hne⟩
    rw [ne_eq, signExtend16_eq_self_iff] at hne
    obtain ⟨rfl, hread⟩ := Operation.ofOperands_eq_ok_iff.1 hop
    cases op
    case lineclear a b o =>
      by_cases hab : c.registers.read a = c.registers.read b
      · cases (if_pos hab).symm.trans ht
        cases hread
        have hlow := le_toInt_of_encode (.inl rfl) h
        exact ⟨a, b, rfl, by omega, .inl ⟨rfl, hab⟩⟩
      · cases (if_neg hab).symm.trans ht
    case nonclear a b o =>
      by_cases hab : c.registers.read a = c.registers.read b
      · cases (if_pos hab).symm.trans ht
      · cases (if_neg hab).symm.trans ht
        cases hread
        have hlow := le_toInt_of_encode (.inr rfl) h
        exact ⟨a, b, rfl, by omega, .inr ⟨rfl, hab⟩⟩
    -- no other operation branches
    all_goals cases ht

/-- An instruction and its encoding fail alike and update the state alike; the
encoding tells the delegate the same with the offset sign-extended. -/
theorem run_perform_of_encode [RandomSource G] (h : m.encode operands = .ok w)
    (hi : instructionSet.resolve w = .ok i) (hop : Operation.ofOperands m operands = .ok op)
    (δ : Delegate D) (c : Cpu G) (d : D) :
    (i.perform δ).run (c, d) =
      match op.fault? c with
      | some fault => .error fault (c, d)
      | none =>
        .ok () (op.update c, δ.follow (op.transfer c (δ.programCounter d)).normalize d) := by
  obtain ⟨op', hop', hi'⟩ := exists_operation_of_encode h hi
  cases hop.symm.trans hop'
  have hrun : (i.perform δ).run (c, d) = _ := Instruction.run_perform_of_ok hi'
  rw [Operation.fault?_normalize, Operation.update_normalize, Operation.transfer_normalize] at hrun
  exact hrun

/-- A branch that is taken by an unsigned offset and its encoding call the delegate
with different offsets, and do nothing else. -/
theorem run_perform_of_branchesUnsigned [RandomSource G] (h : m.encode operands = .ok w)
    (hi : instructionSet.resolve w = .ok i) {c : Cpu G} {offset : Word}
    (hu : m.BranchesUnsigned operands offset c.registers) (δ : Delegate D) (d : D) :
    ((m.instruction operands).perform δ).run (c, d) = .ok () (c, δ.branch offset d) ∧
      (i.perform δ).run (c, d) = .ok () (c, δ.branch (signExtend16 offset) d) := by
  obtain ⟨op, hop⟩ := exists_ofOperands_of_encode h
  have hdirect := (operation_instruction m operands).trans hop
  have ht := ((branchesUnsigned_iff h hop c (δ.programCounter d) offset).1 hu).1
  obtain ⟨hf, hup⟩ := Operation.quiet_of_transfer_eq_branch ht
  constructor
  · rw [Instruction.run_perform_of_ok hdirect, hf, hup, ht]
    rfl
  · rw [run_perform_of_encode h hi hop, hf, hup, ht]
    rfl

/-- **An instruction does what its encoding does**, to every state and with every
delegate, unless it is a taken branch whose offset is spelled as an unsigned number.
Such a branch and its encoding both succeed and leave the state as it was, but the
encoding branches by the sign-extended offset and the instruction by the other. -/
theorem perform_resolve_iff [RandomSource G] (h : m.encode operands = .ok w)
    (hi : instructionSet.resolve w = .ok i) (c : Cpu G) :
    ((∀ (D : Type) (δ : Delegate D) (d : D),
        ((m.instruction operands).perform δ).run (c, d) = (i.perform δ).run (c, d)) ↔
      ∀ offset, ¬ m.BranchesUnsigned operands offset c.registers) ∧
    (∀ offset, m.BranchesUnsigned operands offset c.registers →
      signExtend16 offset ≠ offset ∧ ∀ (D : Type) (δ : Delegate D) (d : D),
        ((m.instruction operands).perform δ).run (c, d) = .ok () (c, δ.branch offset d) ∧
        (i.perform δ).run (c, d) = .ok () (c, δ.branch (signExtend16 offset) d)) := by
  refine ⟨⟨fun hall offset hu => ?_, fun hnone D δ d => ?_⟩, fun offset hu =>
    ⟨hu.signExtend16_ne, fun _ δ d => run_perform_of_branchesUnsigned h hi hu δ d⟩⟩
  · -- the recorder tells the two offsets apart
    obtain ⟨h1, h2⟩ := run_perform_of_branchesUnsigned h hi hu (.recorder 0) .advance
    have heq := h1.symm.trans ((hall _ _ _).trans h2)
    exact hu.signExtend16_ne (by simpa [Delegate.recorder] using heq.symm)
  · -- where no offset is unsigned, decoding does not change the transfer
    obtain ⟨op, hop⟩ := exists_ofOperands_of_encode h
    have hdirect := (operation_instruction m operands).trans hop
    have ht : (op.transfer c (δ.programCounter d)).normalize = op.transfer c (δ.programCounter d) :=
      Transfer.normalize_eq_self fun offset hb => by
        by_contra hne
        exact hnone offset ((branchesUnsigned_iff h hop c _ offset).2 ⟨hb, hne⟩)
    have hrun := run_perform_of_encode h hi hop δ c d
    rw [ht] at hrun
    exact (Instruction.run_perform_of_ok hdirect).trans hrun.symm

/-- The unsigned spelling of a negative summand is as good as the signed one. -/
theorem perform_resolve_harddrop :
    ∃ i, Mnemonic.harddrop.encode [9, 8, 0xffff] = .ok 0x2109ffff ∧
      instructionSet.resolve 0x2109ffff = .ok i ∧
      ∀ (c : Cpu Replay) (pc : Word),
        ((Mnemonic.harddrop.instruction [9, 8, 0xffff]).perform .counter).run (c, pc) =
          (i.perform .counter).run (c, pc) := by
  have h : Mnemonic.harddrop.encode [9, 8, 0xffff] = .ok 0x2109ffff := rfl
  have hi := resolve_of_encode h
  refine ⟨_, h, hi, fun c pc => (perform_resolve_iff h hi c).1.2 ?_ _ _ _⟩
  rintro offset ⟨_, _, -, -, ⟨hm, -⟩ | ⟨hm, -⟩⟩
  · cases hm
  · cases hm

/-- The unsigned spelling of a step back branches forward, its encoding back. -/
theorem perform_lineclear_ne_resolve :
    let c : Cpu Replay := ⟨.zero, .zero 0 64, [], ⟨#[], 0⟩⟩
    ∃ i, Mnemonic.lineclear.encode [8, 9, 0xffff] = .ok 0x1109ffff ∧
      instructionSet.resolve 0x1109ffff = .ok i ∧
      ((Mnemonic.lineclear.instruction [8, 9, 0xffff]).perform .counter).run (c, 4) =
        .ok () (c, 0x40000) ∧
      (i.perform .counter).run (c, 4) = .ok () (c, 0) :=
  ⟨Mnemonic.lineclear.instruction [8, 9, -1], rfl, rfl, rfl, rfl⟩

end Mnemonic

end TetrisMachine
