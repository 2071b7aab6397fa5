import Mathlib.Algebra.BigOperators.Group.List.Basic
import Mathlib.Algebra.Group.End
import Mathlib.Data.List.FinRange
import TetrisMachine.Proofs.Execution.Sequence
import TetrisMachine.Proofs.InstructionSet.Operands

/-!
# Rotations

A `rotate` swaps two registers, so rotations in sequence permute the registers, by the product of
their swaps. The reverse sequence has the inverse product.

* `RegisterFile.permute`: a register file with its registers permuted.
* `Rotation.outcomes_rotations`: what rotations in sequence answer and leave.
* `Rotation.rotations_reversible`: they lose no value, and the reverse sequence undoes them.
-/

namespace TetrisMachine

namespace RegisterFile

variable (f : RegisterFile) (σ τ : Equiv.Perm Register)

/-- Every register holds what the register that it is mapped to held. -/
def permute : RegisterFile :=
  ofFn fun r => f.read (σ r)

@[simp] theorem read_permute (r : Register) : (f.permute σ).read r = f.read (σ r) :=
  read_ofFn _ r

@[simp] theorem permute_one : f.permute 1 = f :=
  ext_read fun r => read_permute f 1 r

theorem permute_mul : f.permute (σ * τ) = (f.permute σ).permute τ :=
  ext_read fun r => by rw [read_permute, read_permute, read_permute, Equiv.Perm.mul_apply]

/-- Two registers that hold each other's value are swapped. -/
theorem write_write_eq_permute (a b : Register) :
    (f.write a (f.read b)).write b (f.read a) = f.permute (Equiv.swap a b) := by
  refine ext_read fun r => ?_
  rw [read_permute, read_write, read_write, Equiv.swap_apply_def]
  by_cases hb : b = r
  · subst hb
    by_cases ha : b = a
    · rw [if_pos rfl, if_pos ha, ha]
    · rw [if_pos rfl, if_neg ha, if_pos rfl]
  · by_cases ha : a = r
    · subst ha
      rw [if_neg hb, if_pos rfl, if_pos rfl]
    · rw [if_neg hb, if_neg ha, if_neg (Ne.symm ha), if_neg (Ne.symm hb)]

/-- The values of a register file are what its registers hold, in order. -/
theorem toList_slots : f.slots.toList = Register.all.map f.read := by
  refine List.ext_getElem (by simp [Register.all]) fun i _ _ => ?_
  simp [Register.all, read]

/-- **A permutation of the registers keeps their values.** -/
theorem perm_permute : (f.permute σ).slots.toList.Perm f.slots.toList := by
  have hnodup : Register.all.Nodup :=
    (List.nodup_finRange 34).map fun _ _ h => congrArg Register.index h
  have hall : (Register.all.map σ).Perm Register.all := by
    rw [List.perm_ext_iff_of_nodup (hnodup.map σ.injective) hnodup]
    refine fun r => ⟨fun _ => Register.mem_all r, fun _ => ?_⟩
    exact List.mem_map.2 ⟨σ.symm r, Register.mem_all _, σ.apply_symm_apply r⟩
  have hread : (f.permute σ).read = f.read ∘ σ := funext fun r => read_permute f σ r
  rw [toList_slots, toList_slots, hread, ← List.map_map]
  exact hall.map f.read

end RegisterFile

/-- A `rotate` of two registers. -/
structure Rotation where
  left : Register
  right : Register
  /-- The third operand. -/
  unused : Word

namespace Rotation

open Instruction

def instruction (ρ : Rotation) : Instruction :=
  Mnemonic.rotate.instruction [ρ.left.toWord, ρ.right.toWord, ρ.unused]

/-- The registers that the rotation swaps. -/
def swap (ρ : Rotation) : Equiv.Perm Register :=
  Equiv.swap ρ.left ρ.right

/-- What rotations in sequence do to the registers. -/
def product (ρs : List Rotation) : Equiv.Perm Register :=
  (ρs.map swap).prod

theorem product_append (ρs ρs' : List Rotation) :
    product (ρs ++ ρs') = product ρs * product ρs' := by
  unfold product
  rw [List.map_append, List.prod_append]

/-- The reverse sequence has the inverse product. -/
theorem product_reverse (ρs : List Rotation) : product ρs.reverse = (product ρs)⁻¹ := by
  have hself : ρs.map (fun ρ => ρ.swap⁻¹) = ρs.map swap :=
    List.map_congr_left fun ρ _ => Equiv.swap_inv ρ.left ρ.right
  unfold product
  rw [List.prod_inv_reverse, List.map_map, List.map_reverse]
  exact congrArg (fun l => l.reverse.prod) hself.symm

variable {G D : Type} [RandomSource G]

theorem outcome_instruction (δ : Delegate D) (ρ : Rotation) (c : Cpu G) (d : D) :
    ρ.instruction.outcome δ (c, d) =
      (.ok (), ({ c with registers := c.registers.permute ρ.swap }, d)) := by
  have hop : ρ.instruction.operation = .ok (.rotate ρ.left ρ.right) :=
    Operation.operation_instruction (.rotate ρ.left ρ.right) ⟨ρ.unused, rfl⟩
  rw [outcome_of_no_fault hop rfl]
  have hregisters : (Operation.rotate ρ.left ρ.right).registers c = c.registers.permute ρ.swap :=
    c.registers.write_write_eq_permute ρ.left ρ.right
  rw [Operation.update, hregisters]
  rfl

/-- **Rotations in sequence all succeed**, and permute the registers by their product. -/
theorem outcomes_rotations (δ : Delegate D) (ρs : List Rotation) (c : Cpu G) (d : D) :
    outcomes δ (ρs.map instruction) (c, d) =
      (List.replicate ρs.length (.ok ()),
        ({ c with registers := c.registers.permute (product ρs) }, d)) := by
  induction ρs generalizing c with
  | nil => simp [outcomes, product]
  | cons ρ ρs ih =>
    have hproduct : c.registers.permute (product (ρ :: ρs)) =
        (c.registers.permute ρ.swap).permute (product ρs) := by
      rw [product, List.map_cons, List.prod_cons, RegisterFile.permute_mul, product]
    rw [List.map_cons, outcomes, outcome_instruction]
    dsimp only
    rw [ih, hproduct]
    rfl

/-- **Rotations are reversible permutations of the registers**, in every state. A sequence of them
succeeds and leaves in every register what another one held, so the values are those that were
there. Followed by its reversal it leaves everything as it was, and so does a rotation of
a register with itself. -/
theorem rotations_reversible (δ : Delegate D) (c : Cpu G) (d : D) (ρs : List Rotation) :
    let is := ρs.map instruction
    (∃ g, outcomes δ is (c, d) =
        (List.replicate is.length (.ok ()), ({ c with registers := g }, d)) ∧
      (∃ σ : Equiv.Perm Register, ∀ r, g.read r = c.registers.read (σ r)) ∧
      g.slots.toList.Perm c.registers.slots.toList) ∧
    outcomes δ (is ++ is.reverse) (c, d) =
      (List.replicate (is ++ is.reverse).length (.ok ()), (c, d)) ∧
    ∀ r unused, (Rotation.mk r r unused).instruction.outcome δ (c, d) = (.ok (), (c, d)) := by
  intro is
  have hlength : is.length = ρs.length := List.length_map ..
  have hself : is ++ is.reverse = (ρs ++ ρs.reverse).map instruction := by
    rw [List.map_append, List.map_reverse]
  have hproduct : product (ρs ++ ρs.reverse) = 1 := by
    rw [product_append, product_reverse, mul_inv_cancel]
  refine ⟨⟨c.registers.permute (product ρs), ?_, ⟨product ρs, ?_⟩, ?_⟩, ?_, ?_⟩
  · rw [hlength]
    exact outcomes_rotations δ ρs c d
  · exact RegisterFile.read_permute c.registers (product ρs)
  · exact RegisterFile.perm_permute _ _
  · rw [hself, outcomes_rotations, hproduct, RegisterFile.permute_one, List.length_map]
  · intro r unused
    have hswap : swap ⟨r, r, unused⟩ = 1 := Equiv.swap_self r
    rw [outcome_instruction, hswap, RegisterFile.permute_one]

end Rotation

end TetrisMachine
