import Mathlib
import TetrisMachine.Proofs.Board.Registers
import TetrisMachine.Proofs.Execution.Sequence
import TetrisMachine.Proofs.InstructionSet.Operands

/-!
# Games of clearing

The rules of the board in any sequence. A rule takes effect if it changes a register. Rows
are cleared from every column at once, so the columns keep their distances, and no more rows are
cleared than every column holds. A board that has topped out stays empty.

* `Board.Rule.apply`: what a rule makes of a board.
* `Board.Turn`, `Board.turns`: the rules of a game, and the states that they are applied in.
* `Board.Turn.height_next`, `Board.Turn.score_next`: what one turn does.
* `Board.play_cleared`: what a game of any length does.
-/

namespace TetrisMachine

namespace Board

/-! ### Heights and rows -/

/-- The height of a column, as a number. -/
def height (b : Board) (i : Fin 10) : Int :=
  (b.columns.get i).toInt

/-- The rows that every column holds: the height of the lowest column, or none if that is
negative. -/
def rows (b : Board) : Nat :=
  (Finset.univ.inf' Finset.univ_nonempty b.height).toNat

section

variable {b : Board} {n points : Nat}

theorem clear_iff_height : b.Clear ↔ ∀ i, b.height i = 0 :=
  forall_congr' fun _ => BitVec.toInt_inj.symm

theorem le_rows_iff : n ≤ b.rows ↔ n = 0 ∨ ∀ i, (n : Int) ≤ b.height i := by
  have hmin : (n : Int) ≤ Finset.univ.inf' Finset.univ_nonempty b.height ↔
      ∀ i, (n : Int) ≤ b.height i := by
    simp [Finset.le_inf'_iff]
  rw [← hmin, rows]
  omega

/-- **Clearing does not wrap**: a board that holds the rows is lowered by exactly so many. -/
theorem height_lower (h : b.Holds n) (i : Fin 10) :
    (b.lower n points).height i = b.height i - n := by
  have hheld : (n : Int) ≤ (b.columns.get i).toInt := h i
  have hlt : (b.columns.get i).toInt < 2 ^ 31 := BitVec.toInt_lt
  have hrows : (BitVec.ofNat 32 n).toInt = n := by
    rw [BitVec.toInt_ofNat', Int.bmod_eq_of_le (by omega) (by omega)]
  have hcolumn : (b.lower n points).columns.get i = b.columns.get i - BitVec.ofNat 32 n := by
    simp [lower, Vector.get_eq_getElem]
  rw [height, height, hcolumn, BitVec.toInt_sub, hrows]
  exact Int.bmod_eq_of_le (by omega) (by omega)

theorem height_empty (i : Fin 10) : empty.height i = 0 := by
  simp [height, empty]

theorem lower_ne (hn : 0 < n) (h : b.Holds n) : b.lower n points ≠ b := by
  intro heq
  have hlower : (b.lower n points).height 0 = b.height 0 - n := height_lower h 0
  rw [heq] at hlower
  omega

theorem empty_ne (h : b.ToppedOut) : empty ≠ b := by
  rintro rfl
  obtain ⟨i, hi⟩ := h
  have hzero : empty.height i = 0 := height_empty i
  have htop : 20 ≤ empty.height i := hi
  omega

/-- A board that is placed changes the registers if it is not the one that they hold. -/
theorem place_ne_iff {f : RegisterFile} : b.place f ≠ f ↔ b ≠ ofRegisters f := by
  refine not_congr ⟨fun h => ?_, fun h => ?_⟩
  · rw [← h, ofRegisters_place]
  · rw [h, place_ofRegisters]

end

/-! ### Rules -/

/-- The rules of the board that take no operand. -/
inductive Rule where
  | downstack | tetris | allclear | viewboard | topout
deriving DecidableEq, Repr

namespace Rule

def operation : Rule → Operation
  | downstack => .downstack
  | tetris => .tetris
  | allclear => .allclear
  | viewboard => .viewboard
  | topout => .topout

/-- The instruction of a rule. -/
def instruction (r : Rule) : Instruction :=
  r.operation.mnemonic.instruction []

/-- What a rule makes of a board. -/
def apply (b : Board) : Rule → Board
  | downstack => if b.Holds 1 then b.lower 1 1 else b
  | tetris => if b.Holds 4 then b.lower 4 5 else b
  | allclear => if b.Clear then b.double else b
  | viewboard => b
  | topout => if b.ToppedOut then empty else b

/-- The rows that a rule clears where it takes effect. -/
def rows : Rule → Nat
  | downstack => 1
  | tetris => 4
  | _ => 0

section

variable {G D : Type} [RandomSource G]

/-- A rule puts in place what it makes of the board. -/
theorem registers_eq (r : Rule) (c : Cpu G) :
    r.operation.registers c = (r.apply c.board).place c.registers := by
  have hkeep (P : Prop) [Decidable P] (b : Board) :
      (if P then b.place c.registers else c.registers) =
        (if P then b else c.board).place c.registers := by
    split
    · rfl
    · exact (place_ofRegisters c.registers).symm
  cases r with
  | viewboard => exact (place_ofRegisters c.registers).symm
  | _ => exact hkeep _ _

/-- **Rules never fail.** They leave the updated state, and the delegate is not called. -/
theorem outcome_eq (δ : Delegate D) (r : Rule) (c : Cpu G) (d : D) :
    r.instruction.outcome δ (c, d) = (.ok (), (r.operation.update c, d)) := by
  have hop : r.instruction.operation = .ok r.operation :=
    r.operation.operation_instruction (by cases r <;> rfl)
  cases r <;> exact Instruction.outcome_of_no_fault hop rfl

/-- Nothing comes of an empty board. -/
theorem apply_empty (r : Rule) : r.apply empty = empty := by
  cases r <;> decide

end

end Rule

/-! ### Turns -/

/-- A rule, and the state that it is applied in. -/
structure Turn (G D : Type) where
  rule : Rule
  state : Cpu G × D

namespace Turn

variable {G D : Type} [RandomSource G]

/-- The board before the turn. -/
def board (t : Turn G D) : Board :=
  t.state.1.board

variable (δ : Delegate D) (t : Turn G D)

/-- The state after the turn. -/
def next : Cpu G × D :=
  (t.rule.instruction.outcome δ t.state).2

/-- The rule takes effect: it changes a register. -/
def Effective : Prop :=
  (t.next δ).1.registers ≠ t.state.1.registers

instance : Decidable (t.Effective δ) :=
  inferInstanceAs (Decidable (_ ≠ _))

/-- The rows that the turn clears. -/
def cleared : Nat :=
  if t.Effective δ then t.rule.rows else 0

/-- The score after the turn, from the one before it, both as numbers that do not wrap. -/
def award (n : Int) : Int :=
  match t.rule with
  | .downstack => if t.Effective δ then n + 1 else n
  | .tetris => if t.Effective δ then n + 5 else n
  | .allclear => if ∀ i, t.board.height i = 0 then 2 * n else n
  | .viewboard => n
  | .topout => if t.Effective δ then 0 else n

variable {δ t}

theorem next_eq : t.next δ = (t.rule.operation.update t.state.1, t.state.2) := by
  rw [next, Rule.outcome_eq]

theorem registers_next :
    (t.next δ).1.registers = (t.rule.apply t.board).place t.state.1.registers := by
  rw [next_eq]
  exact t.rule.registers_eq t.state.1

theorem board_next : (t.next δ).1.board = t.rule.apply t.board := by
  rw [Cpu.board, registers_next, ofRegisters_place]

theorem effective_iff : t.Effective δ ↔ t.rule.apply t.board ≠ t.board := by
  rw [Effective, registers_next, place_ne_iff]
  rfl

/-- A `downstack` takes effect where every column holds a row. -/
theorem effective_downstack (h : t.rule = .downstack) : t.Effective δ ↔ t.board.Holds 1 := by
  rw [effective_iff, h, Rule.apply, ite_ne_right_iff]
  exact and_iff_left_of_imp (lower_ne Nat.one_pos)

/-- A `tetris` takes effect where every column holds four rows. -/
theorem effective_tetris (h : t.rule = .tetris) : t.Effective δ ↔ t.board.Holds 4 := by
  rw [effective_iff, h, Rule.apply, ite_ne_right_iff]
  exact and_iff_left_of_imp (lower_ne (by decide))

/-- A `topout` takes effect where a column has reached the top. -/
theorem effective_topout (h : t.rule = .topout) : t.Effective δ ↔ t.board.ToppedOut := by
  rw [effective_iff, h, Rule.apply, ite_ne_right_iff]
  exact and_iff_left_of_imp empty_ne

/-- **A turn lowers every column by the rows that it clears.** -/
theorem height_next (h : t.rule ≠ .topout) (i : Fin 10) :
    (t.next δ).1.board.height i = t.board.height i - t.cleared δ := by
  rw [board_next, cleared]
  cases hr : t.rule with
  | downstack =>
    simp only [effective_downstack hr, Rule.apply, Rule.rows]
    by_cases hb : t.board.Holds 1
    · rw [if_pos hb, if_pos hb, height_lower hb]
    · rw [if_neg hb, if_neg hb]
      omega
  | tetris =>
    simp only [effective_tetris hr, Rule.apply, Rule.rows]
    by_cases hb : t.board.Holds 4
    · rw [if_pos hb, if_pos hb, height_lower hb]
    · rw [if_neg hb, if_neg hb]
      omega
  | allclear =>
    simp only [Rule.apply, Rule.rows, ite_self]
    split <;> exact (Int.sub_zero _).symm
  | viewboard =>
    simp only [Rule.apply, Rule.rows, ite_self]
    exact (Int.sub_zero _).symm
  | topout => exact absurd hr h

/-- Every column holds the rows that a turn clears. -/
theorem cleared_le : t.cleared δ = 0 ∨ ∀ i, (t.cleared δ : Int) ≤ t.board.height i := by
  rw [cleared]
  by_cases he : t.Effective δ
  · rw [if_pos he]
    cases hr : t.rule with
    | downstack => exact .inr ((effective_downstack hr).1 he)
    | tetris => exact .inr ((effective_tetris hr).1 he)
    | allclear | viewboard | topout => exact .inl rfl
  · exact .inl (if_neg he)

/-- **The score is what the turns are worth**, in the 32 bits that hold it. -/
theorem score_next {n : Int} (h : BitVec.ofInt 32 n = t.board.score) :
    BitVec.ofInt 32 (t.award δ n) = (t.next δ).1.board.score := by
  rw [board_next, award]
  cases hr : t.rule with
  | downstack =>
    simp only [effective_downstack hr, Rule.apply]
    by_cases hb : t.board.Holds 1
    · rw [if_pos hb, if_pos hb, BitVec.ofInt_add, h]
      rfl
    · rw [if_neg hb, if_neg hb, h]
  | tetris =>
    simp only [effective_tetris hr, Rule.apply]
    by_cases hb : t.board.Holds 4
    · rw [if_pos hb, if_pos hb, BitVec.ofInt_add, h]
      rfl
    · rw [if_neg hb, if_neg hb, h]
  | allclear =>
    simp only [← clear_iff_height, Rule.apply]
    by_cases hb : t.board.Clear
    · rw [if_pos hb, if_pos hb, BitVec.ofInt_mul, h, BitVec.mul_comm]
      rfl
    · rw [if_neg hb, if_neg hb, h]
  | viewboard => exact h
  | topout =>
    simp only [effective_topout hr, Rule.apply]
    by_cases hb : t.board.ToppedOut
    · rw [if_pos hb, if_pos hb]
      rfl
    · rw [if_neg hb, if_neg hb, h]

/-- Fewer rows are left by those that a turn clears. -/
theorem rows_next (h : t.rule ≠ .topout) :
    (t.next δ).1.board.rows = t.board.rows - t.cleared δ := by
  have hle : t.cleared δ ≤ t.board.rows := le_rows_iff.2 cleared_le
  refine eq_of_forall_le_iff fun n => ?_
  rw [le_rows_iff]
  simp only [height_next h]
  by_cases hn : n = 0
  · simp [hn]
  · have hsum : n + t.cleared δ ≤ t.board.rows ↔
        ∀ i, (n : Int) + t.cleared δ ≤ t.board.height i := by
      rw [le_rows_iff]
      simp [hn]
    rw [or_iff_right hn, Nat.le_sub_iff_add_le hle, hsum]
    exact forall_congr' fun i => by omega

/-- What a `topout` that takes effect leaves, and what it prints. -/
theorem next_of_topout (h : t.rule = .topout) (he : t.Effective δ) :
    (t.next δ).1.board = empty ∧ (t.next δ).1.output =
      s!"Your final score was {t.board.score.toInt}!\nResetting game.\n" :: t.state.1.output := by
  have htop : t.board.ToppedOut := (effective_topout h).1 he
  refine ⟨?_, ?_⟩
  · rw [board_next, h, Rule.apply, if_pos htop]
  · have htext : Operation.topout.text? t.state.1 =
        some s!"Your final score was {t.board.score.toInt}!\nResetting game.\n" := if_pos htop
    rw [next_eq, h]
    simp only [Rule.operation, Operation.update, htext]
    rfl

end Turn

/-! ### Games -/

section

variable {G D : Type} [RandomSource G] (δ : Delegate D)

/-- The turns of a game. -/
def turns : List Rule → Cpu G × D → List (Turn G D)
  | [], _ => []
  | r :: rs, s => ⟨r, s⟩ :: turns rs (Turn.next δ ⟨r, s⟩)

/-- The state after a game. -/
def play (rs : List Rule) (s : Cpu G × D) : Cpu G × D :=
  (Instruction.outcomes δ (rs.map Rule.instruction) s).2

/-- How often a rule takes effect in some turns. -/
def effects (r : Rule) (ts : List (Turn G D)) : Nat :=
  ts.countP fun t => t.rule = r ∧ t.Effective δ

variable {δ} {rs : List Rule} {s : Cpu G × D} {ts : List (Turn G D)}

theorem play_cons (r : Rule) : play δ (r :: rs) s = play δ rs (Turn.next δ ⟨r, s⟩) := rfl

/-- Every rule of a game succeeds. -/
theorem answers_eq :
    (Instruction.outcomes δ (rs.map Rule.instruction) s).1 = List.replicate rs.length (.ok ()) := by
  induction rs generalizing s with
  | nil => rfl
  | cons r rs ih =>
    have hcons : (Instruction.outcomes δ ((r :: rs).map Rule.instruction) s).1 =
        (r.instruction.outcome δ s).1 ::
          (Instruction.outcomes δ (rs.map Rule.instruction) (Turn.next δ ⟨r, s⟩)).1 := rfl
    rw [hcons, Rule.outcome_eq, ih]
    rfl

theorem effects_cons (r : Rule) (t : Turn G D) :
    effects δ r (t :: ts) = effects δ r ts + if t.rule = r ∧ t.Effective δ then 1 else 0 := by
  simp [effects, List.countP_cons]

/-- The rows that some turns clear, by the rules that took effect. -/
theorem sum_cleared :
    (ts.map (Turn.cleared δ)).sum = effects δ .downstack ts + 4 * effects δ .tetris ts := by
  induction ts with
  | nil => rfl
  | cons t ts ih =>
    rw [List.map_cons, List.sum_cons, ih, effects_cons, effects_cons, Turn.cleared]
    by_cases he : t.Effective δ
    · simp only [he, and_true, if_true]
      cases t.rule <;> simp [Rule.rows] <;> omega
    · simp [he]

/-- **A game lowers every column by the rows that its turns clear.** -/
theorem height_play (h : .topout ∉ rs) (i : Fin 10) :
    (play δ rs s).1.board.height i =
      s.1.board.height i - ((turns δ rs s).map (Turn.cleared δ)).sum := by
  induction rs generalizing s with
  | nil => exact (Int.sub_zero _).symm
  | cons r rs ih =>
    rw [List.mem_cons, not_or] at h
    obtain ⟨hr, hrs⟩ := h
    have hnext : (Turn.next δ ⟨r, s⟩).1.board.height i =
        s.1.board.height i - Turn.cleared δ ⟨r, s⟩ :=
      Turn.height_next (Ne.symm hr) i
    rw [play_cons, ih hrs, hnext, turns, List.map_cons, List.sum_cons]
    omega

/-- Every column holds the rows that a game clears. -/
theorem sum_cleared_le (h : .topout ∉ rs) :
    ((turns δ rs s).map (Turn.cleared δ)).sum = 0 ∨
      ∀ i, (((turns δ rs s).map (Turn.cleared δ)).sum : Int) ≤ s.1.board.height i := by
  induction rs generalizing s with
  | nil => exact .inl rfl
  | cons r rs ih =>
    rw [List.mem_cons, not_or] at h
    obtain ⟨hr, hrs⟩ := h
    have hnext (i : Fin 10) :
        (Turn.next δ ⟨r, s⟩).1.board.height i = s.1.board.height i - Turn.cleared δ ⟨r, s⟩ :=
      Turn.height_next (Ne.symm hr) i
    rw [turns, List.map_cons, List.sum_cons]
    rcases ih (s := Turn.next δ ⟨r, s⟩) hrs with hzero | hheld
    · rw [hzero]
      exact Turn.cleared_le
    · refine .inr fun i => ?_
      have hi := hheld i
      rw [hnext i] at hi
      omega

/-- **The score of a game is what its turns are worth.** -/
theorem score_play {n : Int} (h : BitVec.ofInt 32 n = s.1.board.score) :
    BitVec.ofInt 32 ((turns δ rs s).foldl (fun n t => t.award δ n) n) =
      (play δ rs s).1.board.score := by
  induction rs generalizing s n with
  | nil => exact h
  | cons r rs ih =>
    rw [play_cons, turns, List.foldl_cons]
    exact ih (Turn.score_next h)

/-- Clearing alone is worth a point for every `downstack` and five for every `tetris`. -/
theorem foldl_award (h : ∀ r ∈ rs, r = .downstack ∨ r = .tetris) (n : Int) :
    (turns δ rs s).foldl (fun n t => t.award δ n) n =
      n + (effects δ .downstack (turns δ rs s) + 5 * effects δ .tetris (turns δ rs s) : Nat) := by
  induction rs generalizing s n with
  | nil => simp [turns, effects]
  | cons r rs ih =>
    obtain ⟨hr, hrs⟩ := List.forall_mem_cons.1 h
    rw [turns, List.foldl_cons, ih hrs, effects_cons, effects_cons]
    by_cases he : Turn.Effective δ ⟨r, s⟩
    · rcases hr with rfl | rfl
      · simp only [Turn.award, he, and_true, if_true, reduceCtorEq, if_false]
        omega
      · simp only [Turn.award, he, and_true, if_true, reduceCtorEq, if_false]
        omega
    · rcases hr with rfl | rfl
      · simp [Turn.award, he]
      · simp [Turn.award, he]

/-- **Rows cleared one by one** are all that the columns hold, or as many as are asked for. -/
theorem sum_cleared_replicate (n : Nat) :
    ((turns δ (List.replicate n .downstack) s).map (Turn.cleared δ)).sum =
      min n s.1.board.rows := by
  induction n generalizing s with
  | zero => simp [turns]
  | succ n ih =>
    have hrows : (Turn.next δ ⟨.downstack, s⟩).1.board.rows =
        s.1.board.rows - Turn.cleared δ ⟨.downstack, s⟩ := Turn.rows_next nofun
    have heffective : Turn.Effective δ ⟨.downstack, s⟩ ↔ 1 ≤ s.1.board.rows := by
      rw [Turn.effective_downstack rfl, le_rows_iff]
      simp [Holds, height, Turn.board, Vector.get_eq_getElem]
    rw [List.replicate_succ, turns, List.map_cons, List.sum_cons, ih, hrows, Turn.cleared]
    by_cases he : Turn.Effective δ ⟨.downstack, s⟩
    · have hpos : 1 ≤ s.1.board.rows := heffective.1 he
      rw [if_pos he, Rule.rows]
      omega
    · have hzero : ¬ 1 ≤ s.1.board.rows := fun hpos => he (heffective.2 hpos)
      rw [if_neg he]
      omega

/-- Nothing takes effect on an empty board. -/
theorem idle_of_empty (h : s.1.board = empty) :
    ∀ t ∈ turns δ rs s, t.board = empty ∧ ¬ t.Effective δ := by
  induction rs generalizing s with
  | nil => exact fun _ ht => absurd ht List.not_mem_nil
  | cons r rs ih =>
    have hboard : Turn.board ⟨r, s⟩ = empty := h
    have happly : r.apply (Turn.board ⟨r, s⟩) = empty := by rw [hboard, Rule.apply_empty]
    refine List.forall_mem_cons.2 ⟨⟨hboard, fun he => ?_⟩, ih ?_⟩
    · exact Turn.effective_iff.1 he (happly.trans hboard.symm)
    · rw [Turn.board_next]
      exact happly

/-- **A game is over once it has topped out.** -/
theorem pairwise_turns : (turns δ rs s).Pairwise fun t u =>
    t.rule = .topout → t.Effective δ → u.board = empty ∧ ¬ u.Effective δ := by
  induction rs generalizing s with
  | nil => exact .nil
  | cons r rs ih =>
    refine .cons (fun u hu hr he => ?_) ih
    exact idle_of_empty (Turn.next_of_topout hr he).1 u hu

/-- **Row clearing over whole games.** Every rule of a game succeeds. A `downstack` takes effect
where every column holds a row, a `tetris` where every column holds four, and a `topout` where a
column has reached 20: then it empties the board and prints the score from before, and no rule
takes effect any more. Without `topout` the rows that are cleared are no more than every column
holds, and every column is lowered by exactly so many: it keeps its distance to the others, and it
becomes no negative number. The score is what the turns are worth one after the other, modulo
`2 ^ 32`. So `n` turns of `downstack` clear `n` rows or all that there are, and clearing alone is
worth a point for each row and one more for every four at most. -/
theorem play_cleared (δ : Delegate D) (rs : List Rule) (s : Cpu G × D) :
    let ts := turns δ rs s
    let b := s.1.board
    let b' := (play δ rs s).1.board
    let downstacks := effects δ .downstack ts
    let tetrises := effects δ .tetris ts
    let cleared := downstacks + 4 * tetrises
    (Instruction.outcomes δ (rs.map Rule.instruction) s).1 = List.replicate rs.length (.ok ()) ∧
    (∀ t ∈ ts,
      (t.rule = .downstack → (t.Effective δ ↔ ∀ i, 1 ≤ t.board.height i)) ∧
      (t.rule = .tetris → (t.Effective δ ↔ ∀ i, 4 ≤ t.board.height i)) ∧
      (t.rule = .topout → (t.Effective δ ↔ ∃ i, 20 ≤ t.board.height i)) ∧
      (t.rule = .topout → t.Effective δ → (t.next δ).1.board = empty ∧ (t.next δ).1.output =
        s!"Your final score was {t.board.score.toInt}!\nResetting game.\n" :: t.state.1.output)) ∧
    (ts.Pairwise fun t u =>
      t.rule = .topout → t.Effective δ → u.board = empty ∧ ¬ u.Effective δ) ∧
    b'.score = BitVec.ofInt 32 (ts.foldl (fun n t => t.award δ n) b.score.toInt) ∧
    (.topout ∉ rs → cleared ≤ b.rows ∧
      (∀ i, b'.height i = b.height i - cleared) ∧
      (∀ i, b'.height i = b.height i ∨ 0 ≤ b'.height i) ∧
      ∀ i j, b'.height i - b'.height j = b.height i - b.height j) ∧
    (∀ n, rs = List.replicate n .downstack → cleared = min n b.rows) ∧
    ((∀ r ∈ rs, r = .downstack ∨ r = .tetris) →
      b'.score = b.score + BitVec.ofNat 32 (downstacks + 5 * tetrises) ∧
        downstacks + 5 * tetrises ≤ b.rows + b.rows / 4) := by
  intro ts b b' downstacks tetrises cleared
  have hscore : BitVec.ofInt 32 (ts.foldl (fun n t => t.award δ n) b.score.toInt) = b'.score :=
    score_play (BitVec.ofInt_toInt)
  have hsum : (ts.map (Turn.cleared δ)).sum = cleared := sum_cleared
  have hle (h : .topout ∉ rs) : cleared = 0 ∨ ∀ i, (cleared : Int) ≤ b.height i :=
    hsum ▸ sum_cleared_le h
  have hheight (h : .topout ∉ rs) (i : Fin 10) : b'.height i = b.height i - cleared :=
    hsum ▸ height_play h i
  refine ⟨answers_eq, fun t _ => ⟨Turn.effective_downstack, Turn.effective_tetris,
    Turn.effective_topout, Turn.next_of_topout⟩, pairwise_turns, hscore.symm, fun h => ?_, ?_,
    fun h => ?_⟩
  · refine ⟨le_rows_iff.2 (hle h), hheight h, fun i => ?_, fun i j => ?_⟩
    · have hi := hheight h i
      rcases hle h with hzero | hheld
      · exact .inl (by omega)
      · exact .inr (by have := hheld i; omega)
    · rw [hheight h i, hheight h j]
      omega
  · rintro n rfl
    rw [← hsum]
    exact sum_cleared_replicate n
  · have htopout : .topout ∉ rs := fun hmem => by rcases h _ hmem with h | h <;> cases h
    have hrows : cleared ≤ b.rows := le_rows_iff.2 (hle htopout)
    refine ⟨?_, by omega⟩
    rw [← hscore, foldl_award h, BitVec.ofInt_add, BitVec.ofInt_toInt, BitVec.ofInt_natCast]

/-- Five rows that are cleared by four and by one, the most that they can be worth; the same rows
one by one; and a column that has reached the top. -/
theorem play_cleared_five :
    let b : Board := ⟨#v[9, 9, 9, 9, 5, 9, 9, 9, 9, 20], 7⟩
    let s : Cpu Replay × Word := (⟨b.place .zero, .zero 0 64, [], ⟨#[], 0⟩⟩, 4)
    let rs : List Rule := [.tetris, .tetris, .downstack, .downstack]
    let ts := turns .counter rs s
    let ones : List Rule := List.replicate 9 .downstack
    let t : Turn Replay Word := ⟨.topout, s⟩
    (.topout ∉ rs ∧ (∀ r ∈ rs, r = .downstack ∨ r = .tetris) ∧ s.1.board.rows = 5 ∧
      effects .counter .downstack ts + 5 * effects .counter .tetris ts = 6 ∧
      effects .counter .downstack ts + 5 * effects .counter .tetris ts ≤ 5 + 5 / 4 ∧
      (∀ i, (play .counter rs s).1.board.height i =
        s.1.board.height i -
          (effects .counter .downstack ts + 4 * effects .counter .tetris ts : Nat))) ∧
    effects .counter .downstack (turns .counter ones s) +
      4 * effects .counter .tetris (turns .counter ones s) = min 9 5 ∧
    t ∈ turns .counter [.topout, .downstack] s ∧ t.Effective .counter ∧
      (t.next .counter).1.board = empty := by
  intro b s rs ts ones t
  obtain ⟨-, -, -, -, hcleared, -, hworth⟩ := play_cleared .counter rs s
  obtain ⟨-, -, -, -, -, hones, -⟩ := play_cleared .counter ones s
  obtain ⟨-, hturns, -⟩ := play_cleared .counter [.topout, .downstack] s
  have hrows : s.1.board.rows = 5 := by decide +kernel
  have htopout : .topout ∉ rs := by decide
  have hrs : ∀ r ∈ rs, r = .downstack ∨ r = .tetris := by decide
  have heffective : t.Effective .counter := by decide +kernel
  have hmem : t ∈ turns .counter [.topout, .downstack] s := .head _
  refine ⟨⟨htopout, hrs, hrows, by decide +kernel, hrows ▸ (hworth hrs).2, (hcleared htopout).2.1⟩,
    hrows ▸ hones 9 rfl, hmem, heffective, ((hturns t hmem).2.2.2 rfl heffective).1⟩

end

end Board

end TetrisMachine
