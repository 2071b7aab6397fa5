import TetrisMachine.Text.Clusters

/-!
# Backspaces

The text that is left of a line typed with backspaces. A backspace takes back the
cluster typed before it, and nothing if there is none.

* `applyBackspaces`: the text that is left.
* `applyBackspaces_of_notMem`: a line without a backspace is left as it is.
-/

namespace TetrisMachine.Text

/-- What has been typed so far. -/
structure Typed where
  /-- The characters, last first. -/
  characters : List Char
  /-- The sizes of the clusters that can be taken back, last first. A size is a
  number of bytes and is kept in one byte. -/
  sizes : List UInt8
deriving DecidableEq, Repr

/-- Takes so many bytes off the front. -/
def dropBytes (n : Nat) : List Char → List Char
  | [] => []
  | c :: cs => if n = 0 then c :: cs else dropBytes (n - c.utf8Size) cs

namespace Typed

def empty : Typed := ⟨[], []⟩

variable (t : Typed)

/-- Takes back the last cluster. -/
def takeBack : Typed :=
  match t.sizes with
  | [] => t
  | n :: sizes => ⟨dropBytes n.toNat t.characters, sizes⟩

/-- Adds a cluster. -/
def add (cluster : List Char) : Typed :=
  ⟨cluster.reverse ++ t.characters, UInt8.ofNat (String.ofList cluster).utf8ByteSize :: t.sizes⟩

/-- Types a cluster. A backspace is a cluster of its own. -/
def type (cluster : List Char) : Typed :=
  if cluster = ['\x08'] then t.takeBack else t.add cluster

end Typed

/-- The text that is left of a line typed with backspaces. -/
def applyBackspaces (line : List Char) : List Char :=
  ((clusters line).foldl Typed.type .empty).characters.reverse

theorem characters_foldl_type {ks : List (List Char)} (h : '\x08' ∉ ks.flatten) (t : Typed) :
    (ks.foldl Typed.type t).characters = ks.flatten.reverse ++ t.characters := by
  induction ks generalizing t with
  | nil => simp
  | cons k ks ih =>
    simp only [List.flatten_cons, List.mem_append, not_or] at h
    have hk : k ≠ ['\x08'] := by
      rintro rfl
      simp at h
    simp [ih h.2, Typed.type, hk, Typed.add]

/-- A line without a backspace is left as it is. -/
theorem applyBackspaces_of_notMem {line : List Char} (h : '\x08' ∉ line) :
    applyBackspaces line = line := by
  have h' : '\x08' ∉ (clusters line).flatten := by rwa [flatten_clusters]
  simp [applyBackspaces, characters_foldl_type h', flatten_clusters, Typed.empty]

end TetrisMachine.Text
