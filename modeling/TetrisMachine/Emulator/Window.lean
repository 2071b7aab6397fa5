/-!
# Windows

The last entries of a growing sequence, at most so many.

A window does not drop its oldest entry each time one is recorded. It keeps the entries in two
lists and shows the first `capacity` of them: one that has fallen out of the window is not shown
any more, and is dropped when `recent` is full and takes the place of `older`. So a window keeps
fewer than twice as many entries as it can show, and recording takes the same time whatever the
capacity is.

* `Window.toList_record`: what a window shows after an entry is recorded.
* `Window.length_kept_lt`: a window keeps fewer than twice as many entries as it can show.
-/

namespace TetrisMachine

/-- The last `capacity` entries of a sequence. New entries go to `recent`; when it
is full it takes the place of `older`. Both have the newest entry first. -/
structure Window (α : Type) (capacity : Nat) where
  recent : List α
  older : List α
  /-- The number of entries in `recent`. -/
  count : Nat
  count_eq : count = recent.length
  recent_lt : recent.length < max capacity 1
  older_le : older.length ≤ max capacity 1

namespace Window

variable {α : Type} {capacity : Nat}

def empty : Window α capacity where
  recent := []
  older := []
  count := 0
  count_eq := rfl
  recent_lt := by simp only [List.length_nil]; omega
  older_le := Nat.zero_le _

/-- Adds an entry at the end of the sequence. -/
def record (w : Window α capacity) (a : α) : Window α capacity :=
  if h : w.count + 1 < capacity then
    { recent := a :: w.recent
      older := w.older
      count := w.count + 1
      count_eq := by rw [List.length_cons, w.count_eq]
      recent_lt := by rw [List.length_cons, ← w.count_eq]; omega
      older_le := w.older_le }
  else
    { recent := []
      older := a :: w.recent
      count := 0
      count_eq := rfl
      recent_lt := by simp only [List.length_nil]; omega
      older_le := w.recent_lt }

/-- The entries of the window, newest first. -/
def toList (w : Window α capacity) : List α :=
  (w.recent ++ w.older).take capacity

@[simp] theorem toList_empty : (empty : Window α capacity).toList = [] := by
  simp [empty, toList]

/-- **A new entry comes first, and the window is cut to its capacity.** -/
theorem toList_record (w : Window α capacity) (a : α) :
    (w.record a).toList = (a :: w.toList).take capacity := by
  cases capacity with
  | zero => simp [toList]
  | succ n =>
    unfold record toList
    split
    · simp [List.take_take]
    · next h =>
      rw [w.count_eq] at h
      have hn : n - min (n + 1) w.recent.length = 0 := by omega
      simp [List.take_take, List.take_append, hn]

theorem length_toList_le (w : Window α capacity) : w.toList.length ≤ capacity := by
  simp only [toList, List.length_take]
  omega

/-- **Old entries are dropped**: fewer than twice the capacity are kept, whatever was recorded. -/
theorem length_kept_lt (w : Window α capacity) (h : 0 < capacity) :
    (w.recent ++ w.older).length < 2 * capacity := by
  have hrecent : w.recent.length < max capacity 1 := w.recent_lt
  have holder : w.older.length ≤ max capacity 1 := w.older_le
  rw [List.length_append]
  omega

end Window

end TetrisMachine
