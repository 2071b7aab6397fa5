import TetrisMachine.Word

/-!
# Registers

Thirty-two general registers, then `hi` and `lo`. No register is fixed: `$zero`
is written like any other.

* `read_write`: what a register holds after a write.
* `RegisterFile.ext_read`: a register file is what its registers hold.
-/

namespace TetrisMachine

/-- A register, by index. -/
structure Register where
  index : Fin 34
deriving DecidableEq, Repr

namespace Register

/-- The names of the registers, by index. -/
def names : Vector String 34 :=
  #v["$zero", "$at", "$v0", "$v1", "$a0", "$a1", "$a2", "$a3",
    "$t0", "$t1", "$t2", "$t3", "$t4", "$t5", "$t6", "$t7",
    "$s0", "$s1", "$s2", "$s3", "$s4", "$s5", "$s6", "$s7",
    "$t8", "$t9", "$k0", "$k1", "$gp", "$sp", "$fp", "$ra", "hi", "lo"]

def name (r : Register) : String :=
  names[r.index]

/-- The high word of a product, or the remainder of a division. -/
def hi : Register := ⟨32⟩

/-- The low word of a product, or the quotient of a division. -/
def lo : Register := ⟨33⟩

/-- The registers `$t0` to `$t9`. -/
def temporaries : Vector Register 10 :=
  #v[⟨8⟩, ⟨9⟩, ⟨10⟩, ⟨11⟩, ⟨12⟩, ⟨13⟩, ⟨14⟩, ⟨15⟩, ⟨24⟩, ⟨25⟩]

/-- The register `$s0`. -/
def s0 : Register := ⟨16⟩

/-- All registers, by index. -/
def all : List Register :=
  (List.finRange 34).map (⟨·⟩)

/-- The register that a word names: the words 0 to 33 name one. -/
def ofWord? (w : Word) : Option Register :=
  if h : w.toNat < 34 then some ⟨w.toNat, h⟩ else none

/-- The word that names a register. -/
def toWord (r : Register) : Word :=
  BitVec.ofNat 32 r.index

theorem toNat_toWord (r : Register) : r.toWord.toNat = r.index := by
  simp only [toWord, BitVec.toNat_ofNat]
  omega

@[simp] theorem ofWord?_toWord (r : Register) : ofWord? r.toWord = some r := by
  simp [ofWord?, toNat_toWord]

theorem ofWord?_eq_some_iff {w : Word} {r : Register} : ofWord? w = some r ↔ w = r.toWord := by
  constructor
  · intro h
    unfold ofWord? at h
    split at h
    · cases h
      apply BitVec.eq_of_toNat_eq
      rw [toNat_toWord]
    · cases h
  · rintro rfl
    exact ofWord?_toWord r

theorem mem_all (r : Register) : r ∈ all :=
  List.mem_map.2 ⟨r.index, List.mem_finRange _, rfl⟩

end Register

/-- The contents of the registers. -/
structure RegisterFile where
  slots : Vector Word 34
deriving DecidableEq, Repr

namespace RegisterFile

/-- All registers hold zero. -/
def zero : RegisterFile :=
  ⟨Vector.replicate 34 0⟩

/-- The registers hold what a function gives. -/
def ofFn (g : Register → Word) : RegisterFile :=
  ⟨Vector.ofFn fun i => g ⟨i⟩⟩

def read (f : RegisterFile) (r : Register) : Word :=
  f.slots[r.index]

def write (f : RegisterFile) (r : Register) (w : Word) : RegisterFile :=
  ⟨f.slots.set r.index w⟩

@[simp] theorem read_ofFn (g : Register → Word) (r : Register) : (ofFn g).read r = g r := by
  simp [ofFn, read]

theorem read_write (f : RegisterFile) (r r' : Register) (w : Word) :
    (f.write r w).read r' = if r = r' then w else f.read r' := by
  obtain ⟨i⟩ := r
  obtain ⟨j⟩ := r'
  simp [read, write, Vector.getElem_set, Fin.ext_iff]

@[simp] theorem read_write_same (f : RegisterFile) (r : Register) (w : Word) :
    (f.write r w).read r = w := by
  simp [read_write]

theorem read_write_of_ne (f : RegisterFile) {r r' : Register} (w : Word) (h : r ≠ r') :
    (f.write r w).read r' = f.read r' := by
  simp [read_write, h]

/-- A register file is what its registers hold. -/
theorem ext_read {f g : RegisterFile} (h : ∀ r, f.read r = g.read r) : f = g := by
  obtain ⟨v⟩ := f
  obtain ⟨w⟩ := g
  congr 1
  exact Vector.ext fun i hi => h ⟨i, hi⟩

end RegisterFile

end TetrisMachine
