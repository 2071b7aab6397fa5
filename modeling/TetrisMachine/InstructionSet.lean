import TetrisMachine.Catalog

/-!
# The instruction set

The catalog of the twenty instructions, and encoding by mnemonic. Its templates
are those that the layouts draw, so it is the catalog that is built from them.

* `Mnemonic.ofLayout_layout`: the template of each layout.
* `Catalog.build_all`: the catalog is the one built from all mnemonics.
* `mem_descriptors_iff`: every mnemonic has its descriptor there, and no other.
-/

namespace TetrisMachine

namespace Mnemonic

/-- The template that the layout draws: mask, bits, and the fields of the operands. -/
def template : Mnemonic → Template
  | harddrop => ⟨0xfc000000, 0x20000000, [⟨0, 16, 5⟩, ⟨1, 21, 5⟩, ⟨2, 0, 16⟩]⟩
  | attack => ⟨0xfc0007ff, 0x70000002, [⟨0, 11, 5⟩, ⟨1, 21, 5⟩, ⟨2, 16, 5⟩]⟩
  | delay => ⟨0xfc00ffff, 0x0000001a, [⟨0, 21, 5⟩, ⟨1, 16, 5⟩]⟩
  | stack => ⟨0xfc0007ff, 0x00000020, [⟨0, 11, 5⟩, ⟨1, 21, 5⟩, ⟨2, 16, 5⟩]⟩
  | garbage => ⟨0xfc0007ff, 0x00000022, [⟨0, 11, 5⟩, ⟨1, 21, 5⟩, ⟨2, 16, 5⟩]⟩
  | hold => ⟨0xfc000000, 0xac000000, [⟨0, 16, 5⟩, ⟨1, 0, 16⟩, ⟨2, 21, 5⟩]⟩
  | next => ⟨0xfc000000, 0x8c000000, [⟨0, 16, 5⟩, ⟨1, 0, 16⟩, ⟨2, 21, 5⟩]⟩
  | shift => ⟨0xfc000000, 0x08000000, [⟨0, 0, 26⟩]⟩
  | lineclear => ⟨0xfc000000, 0x10000000, [⟨0, 21, 5⟩, ⟨1, 16, 5⟩, ⟨2, 0, 16⟩]⟩
  | nonclear => ⟨0xfc000000, 0x14000000, [⟨0, 21, 5⟩, ⟨1, 16, 5⟩, ⟨2, 0, 16⟩]⟩
  | downstack => ⟨0xffffffff, 0x0000003f, []⟩
  | topout => ⟨0xffffffff, 0x0000003e, []⟩
  | allclear => ⟨0xffffffff, 0x0000003d, []⟩
  | viewboard => ⟨0xffffffff, 0x0000003b, []⟩
  | tetris => ⟨0xffffffff, 0x00000037, []⟩
  | ghostpiece => ⟨0xfc000000, 0xe8000000, [⟨0, 16, 5⟩, ⟨1, 21, 5⟩, ⟨2, 0, 16⟩]⟩
  | drop => ⟨0xffff07ff, 0x74000001, [⟨0, 11, 5⟩]⟩
  | rotate => ⟨0xfc0007ff, 0x74000002, [⟨0, 11, 5⟩, ⟨1, 21, 5⟩, ⟨2, 16, 5⟩]⟩
  | slowgravity => ⟨0xfc000000, 0xec000000, [⟨0, 16, 5⟩, ⟨1, 21, 5⟩, ⟨2, 0, 16⟩]⟩
  | combo => ⟨0xffff0000, 0xf0000000, [⟨0, 0, 16⟩]⟩

theorem toOption_ofLayout :
    ∀ m ∈ all, (Template.ofLayout m.layout).toOption = some m.template := by
  decide +kernel

/-- The template of a mnemonic is the one that its layout draws. -/
theorem ofLayout_layout (m : Mnemonic) : Template.ofLayout m.layout = .ok m.template := by
  have h := toOption_ofLayout m m.mem_all
  cases hl : Template.ofLayout m.layout with
  | error flaw =>
    rw [hl] at h
    cases h
  | ok t =>
    rw [hl] at h
    cases h
    rfl

/-- The descriptor of a mnemonic. -/
def descriptor (m : Mnemonic) : Descriptor :=
  ⟨m, m.format, m.template⟩

@[simp] theorem template_descriptor (m : Mnemonic) : m.descriptor.template = m.template := rfl

theorem ofMnemonic_eq (m : Mnemonic) : Descriptor.ofMnemonic m = .ok m.descriptor := by
  rw [Descriptor.ofMnemonic, ofLayout_layout, descriptor]

theorem mapM_ofMnemonic (ms : List Mnemonic) :
    ms.mapM Descriptor.ofMnemonic = .ok (ms.map descriptor) := by
  induction ms with
  | nil => rfl
  | cons m ms ih =>
    rw [List.mapM_cons, ofMnemonic_eq, ih]
    rfl

end Mnemonic

/-- The instruction set of the machine. -/
def instructionSet : Catalog :=
  .ofDescriptors (Mnemonic.all.map Mnemonic.descriptor)

/-- **The instruction set is the catalog built from the layouts of all mnemonics.** -/
theorem Catalog.build_all : Catalog.build Mnemonic.all = .ok instructionSet :=
  build_eq_ok_iff.2 ⟨_, Mnemonic.mapM_ofMnemonic _, by decide +kernel, by decide +kernel, rfl⟩

/-- The instruction set holds the descriptors of the mnemonics and no others. -/
theorem mem_descriptors_iff {d : Descriptor} :
    d ∈ instructionSet.descriptors ↔ d.mnemonic.descriptor = d := by
  rw [instructionSet, Catalog.descriptors_ofDescriptors, List.mem_map]
  constructor
  · rintro ⟨m, -, rfl⟩
    rfl
  · intro h
    exact ⟨d.mnemonic, d.mnemonic.mem_all, h⟩

namespace Mnemonic

theorem descriptor_mem (m : Mnemonic) : m.descriptor ∈ instructionSet.descriptors :=
  mem_descriptors_iff.2 rfl

/-- The word of a mnemonic with operands. -/
def encode (m : Mnemonic) (operands : List Word) : Except EncodingError Word :=
  m.descriptor.template.encode m operands

/-- The instruction that a mnemonic with operands stands for, as decoding its
word would give it. -/
def instruction (m : Mnemonic) (operands : List Word) : Instruction :=
  ⟨m.descriptor.key, operands⟩

end Mnemonic

end TetrisMachine
