import TetrisMachine.Proofs.Emulator.Ending

/-!
# The next program counter

An instruction that a step executes is followed by the one after it, unless it is a jump or a
branch that is taken. Where these go can be read off the word itself: the low 26 bits of a jump
are the target in its region, and the low 16 bits of a branch are a signed distance in words.

* `Mnemonic.nextCounter`: the program counter after an instruction, from its word.
* `target_of_resolve`: control goes there.
* `Emulator.counter_step`: so does a step, and one of two opposite branches is taken.
-/

namespace TetrisMachine

/-- The general register that five bits of a word number. -/
def registerAt (w : Word) (shift : Nat) : Register :=
  ⟨⟨(w >>> shift).toNat % 32, by omega⟩⟩

/-- The program counter after the instruction that a word encodes. -/
def Mnemonic.nextCounter (m : Mnemonic) (w : Word) (f : RegisterFile) (pc : Word) : Word :=
  let next := pc + 4
  let branch := next + BitVec.ofInt 32 (4 * (w.setWidth 16).toInt)
  match m with
  | shift => (next &&& 0xf0000000) + BitVec.ofNat 32 (4 * (w.toNat % 0x4000000))
  | lineclear => if f.read (registerAt w 21) = f.read (registerAt w 16) then branch else next
  | nonclear => if f.read (registerAt w 21) = f.read (registerAt w 16) then next else branch
  | _ => next

section

variable {G : Type} {w pc target : Word} {r : Register} {i : Instruction} {op : Operation}

theorem eq_registerAt {f : Field} (hw : f.width = 5) (h : r.toWord = f.extract w) :
    r = registerAt w f.shift := by
  have hnat := congrArg BitVec.toNat h
  rw [Register.toNat_toWord, Field.toNat_extract (by omega) (by omega), hw] at hnat
  obtain ⟨index⟩ := r
  exact congrArg Register.mk (Fin.ext hnat)

/-- A branch moves by its distance, modulo the address space. -/
theorem signExtend16_mul_four (w : Word) :
    signExtend16 w * 4 = BitVec.ofInt 32 (4 * (w.setWidth 16).toInt) := by
  rw [Int.mul_comm, BitVec.ofInt_mul, ← toInt_signExtend16, BitVec.ofInt_toInt]
  rfl

theorem jumpAddress_eq_add (h : target.toNat < 0x4000000) :
    jumpAddress pc target = (pc &&& 0xf0000000) + BitVec.ofNat 32 (4 * target.toNat) := by
  apply BitVec.eq_of_toNat_eq
  have hlt := pc.isLt
  rw [toNat_jumpAddress h, BitVec.toNat_add, toNat_and_regionMask, BitVec.toNat_ofNat]
  omega

/-- The operands of a decoded instruction are in the fields of its word. -/
theorem operands_of_resolve (h : instructionSet.resolve w = .ok i) (hop : i.operation = .ok op) :
    op.ReadFrom (op.mnemonic.template.extract w) := by
  obtain ⟨d, hd, rfl⟩ := Catalog.resolve_eq_ok_iff.1 h
  obtain ⟨op', hop', hdecode, hread, -⟩ := exists_operation_of_resolve h
  cases hop.symm.trans hop'
  cases hd.symm.trans hdecode
  exact hread

/-- The operands of a branch, from the template of both branches. -/
theorem eq_of_branch_operands {a b : Register} {offset : Word}
    (h : Mnemonic.lineclear.template.extract w = [a.toWord, b.toWord, offset]) :
    a = registerAt w 21 ∧ b = registerAt w 16 ∧ offset = signExtend16 w := by
  have hextract : Mnemonic.lineclear.template.extract w = [Field.extract ⟨0, 21, 5⟩ w,
      Field.extract ⟨1, 16, 5⟩ w, Field.extract ⟨2, 0, 16⟩ w] := rfl
  rw [hextract, Field.extract_signed] at h
  injection h with ha h
  injection h with hb h
  injection h with hoffset
  exact ⟨eq_registerAt rfl ha.symm, eq_registerAt rfl hb.symm, hoffset.symm⟩

/-- **Control goes where the word of an instruction says.** -/
theorem Operation.target_of_resolve (h : instructionSet.resolve w = .ok i)
    (hop : i.operation = .ok op) (c : Cpu G) (pc : Word) :
    (op.transfer c (pc + 4)).target (pc + 4) = op.mnemonic.nextCounter w c.registers pc := by
  have hread := operands_of_resolve h hop
  cases op
  case shift target =>
    have htarget : [Field.extract ⟨0, 0, 26⟩ w] = [target] := hread
    have hlt : target.toNat < 0x4000000 := target_lt_of_resolve h hop
    have hnat : target.toNat = w.toNat % 0x4000000 := by
      cases htarget
      rw [Field.toNat_extract (by decide) (by decide), BitVec.ushiftRight_zero]
      rfl
    change jumpAddress (pc + 4) target = _
    rw [jumpAddress_eq_add hlt, hnat]
    rfl
  case lineclear a b offset =>
    obtain ⟨rfl, rfl, rfl⟩ := eq_of_branch_operands hread
    simp only [transfer, mnemonic, Mnemonic.nextCounter]
    split
    · rw [Transfer.target, signExtend16_mul_four]
    · rfl
  case nonclear a b offset =>
    obtain ⟨rfl, rfl, rfl⟩ := eq_of_branch_operands hread
    simp only [transfer, mnemonic, Mnemonic.nextCounter]
    split
    · rfl
    · rw [Transfer.target, signExtend16_mul_four]
  all_goals rfl

end

namespace Emulator

variable {G : Type} [RandomSource G]

/-- A step that finds a word below the limit and succeeds has executed its instruction. -/
theorem plan_of_step_ok {e : Emulator G} {w : Word} (hs : e.state ≠ .halted) (hl : ¬ e.AtLimit)
    (hfetch : e.fetch e.pc = some w) (hok : e.step.2 = .ok ()) :
    ∃ i op, instructionSet.resolve w = .ok i ∧ i.operation = .ok op ∧
      e.step = (e.executed i op, .ok ()) := by
  cases hp : e.plan with
  | stop answer =>
    rw [step_of_stop hs hp] at hok
    obtain rfl : answer = .ok () := hok
    rw [plan_eq_stop_ok_iff, hfetch] at hp
    rcases hp with hlimit | ⟨-, hnone⟩
    · exact absurd hlimit hl
    · cases hnone
  | execute i op =>
    obtain ⟨-, word, hword, hresolve, hop, -⟩ := plan_eq_execute_iff.1 hp
    cases hfetch.symm.trans hword
    exact ⟨i, op, hresolve, hop, by rw [step_eq hs, hp]⟩

/-- **Where a step goes.** A step that executes a word goes to the target in its low 26 bits, in
the region of the address past it, if it is a jump; by the signed distance in its low 16 bits,
from the address past it, if it is a branch that is taken; and to the address past it otherwise.
Of two opposite branches on the same registers one is taken and the other is not. -/
theorem counter_step :
    (∀ (e : Emulator G) (w : Word), e.state ≠ .halted → ¬ e.AtLimit →
      e.fetch e.pc = some w → e.step.2 = .ok () →
        ∃ m : Mnemonic, instructionSet.decode w = .ok m.descriptor ∧
          e.step.1.steps = e.steps + 1 ∧
          e.step.1.pc = m.nextCounter w e.cpu.registers e.pc ∧
          (m = .shift → 4 ∣ e.step.1.pc.toNat ∧
            e.step.1.pc.toNat / 0x10000000 = (e.pc + 4).toNat / 0x10000000)) ∧
    ∀ (c : Cpu G) (a b : Register) (offset offset' pc : Word),
      let lineclear := (Mnemonic.lineclear.instruction [a.toWord, b.toWord, offset]).execute pc
      let nonclear := (Mnemonic.nonclear.instruction [a.toWord, b.toWord, offset']).execute pc
      lineclear.run c = .ok (.branch offset) c ∧ nonclear.run c = .ok .advance c ∨
        lineclear.run c = .ok .advance c ∧ nonclear.run c = .ok (.branch offset') c := by
  constructor
  · intro e w hs hl hfetch hok
    obtain ⟨i, op, hresolve, hop, hstep⟩ := plan_of_step_ok hs hl hfetch hok
    have hpc : e.step.1.pc = op.mnemonic.nextCounter w e.cpu.registers e.pc := by
      rw [hstep]
      exact Operation.target_of_resolve hresolve hop e.cpu e.pc
    refine ⟨op.mnemonic, decode_of_resolve hresolve hop, by rw [hstep]; rfl, hpc, fun hm => ?_⟩
    have hnat : e.step.1.pc.toNat =
        (e.pc + 4).toNat / 0x10000000 * 0x10000000 + 4 * (w.toNat % 0x4000000) := by
      have hlt := (e.pc + 4).isLt
      rw [hpc, hm]
      change ((e.pc + 4 &&& 0xf0000000) + BitVec.ofNat 32 (4 * (w.toNat % 0x4000000))).toNat = _
      rw [BitVec.toNat_add, toNat_and_regionMask, BitVec.toNat_ofNat]
      omega
    omega
  · intro c a b offset offset' pc lineclear nonclear
    have heq : (Mnemonic.lineclear.instruction [a.toWord, b.toWord, offset]).operation =
        .ok (.lineclear a b offset) := by
      rw [Mnemonic.operation_instruction, Operation.ofOperands_eq_ok_iff]
      exact ⟨rfl, rfl⟩
    have hne : (Mnemonic.nonclear.instruction [a.toWord, b.toWord, offset']).operation =
        .ok (.nonclear a b offset') := by
      rw [Mnemonic.operation_instruction, Operation.ofOperands_eq_ok_iff]
      exact ⟨rfl, rfl⟩
    have hlineclear : lineclear.run c = _ := Instruction.run_execute_of_ok heq pc
    have hnonclear : nonclear.run c = _ := Instruction.run_execute_of_ok hne pc
    rw [hlineclear, hnonclear]
    by_cases h : c.registers.read a = c.registers.read b
    · simp only [Operation.fault?, Operation.transfer, if_pos h]
      exact .inl ⟨rfl, rfl⟩
    · simp only [Operation.fault?, Operation.transfer, if_neg h]
      exact .inr ⟨rfl, rfl⟩

/-- A jump at the end of a region goes to the next one, and a branch back from the first address
goes to the end of the address space. -/
theorem counter_step_shift :
    let e : Emulator Replay := start { textBase := 0x0ffffffc } [0x08000001] ⟨#[], 0⟩
    let e' : Emulator Replay := start { textBase := 0 } [0x1000fffe] ⟨#[], 0⟩
    (instructionSet.decode 0x08000001 = .ok Mnemonic.shift.descriptor ∧
      e.step.1.pc = Mnemonic.shift.nextCounter 0x08000001 e.cpu.registers 0x0ffffffc ∧
      e.step.1.pc = 0x10000004) ∧
    (instructionSet.decode 0x1000fffe = .ok Mnemonic.lineclear.descriptor ∧
      e'.step.1.pc = Mnemonic.lineclear.nextCounter 0x1000fffe e'.cpu.registers 0 ∧
      e'.step.1.pc = 0xfffffffc) := by
  intro e e'
  obtain ⟨hstep, -⟩ := counter_step (G := Replay)
  have hjump : instructionSet.decode 0x08000001 = .ok Mnemonic.shift.descriptor := by decide +kernel
  have hbranch : instructionSet.decode 0x1000fffe = .ok Mnemonic.lineclear.descriptor := by
    decide +kernel
  obtain ⟨m, hm, -, hpc, -⟩ := hstep e 0x08000001 (by decide) (by decide) (by decide +kernel)
    (by decide +kernel)
  obtain ⟨m', hm', -, hpc', -⟩ := hstep e' 0x1000fffe (by decide) (by decide) (by decide +kernel)
    (by decide +kernel)
  cases hjump.symm.trans hm
  cases hbranch.symm.trans hm'
  exact ⟨⟨hjump, hpc, by decide +kernel⟩, hbranch, hpc', by decide +kernel⟩

end Emulator

end TetrisMachine
