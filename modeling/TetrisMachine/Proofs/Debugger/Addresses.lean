import TetrisMachine.Debugger.Command
import TetrisMachine.Proofs.Text.Numerals

/-!
# Addresses as texts

The debugger tries a text without `0x` in decimal first and then in hexadecimal, also when it is
decimal and too large. That never goes wrong: the digits of a decimal numeral are digits of
a hexadecimal one, which is no smaller, so a numeral that is too large in decimal is too large in
hexadecimal.

* `Text.Numeral.Spells.of_le`: a numeral is one in any greater radix, of a number no smaller.
* `Debugger.readWord_eq_some_iff`: the words that are read in a radix.
* `Debugger.parseAddress_exact`: what every text is read as.
-/

namespace TetrisMachine

namespace Text.Numeral

variable {radix radix' n : Nat} {cs : List Char} {ds : List Nat}

theorem Row.of_le (h : Row radix cs ds) (hle : radix ≤ radix') : Row radix' cs ds :=
  h.imp fun _ _ hd => ⟨hd.1, Nat.lt_of_lt_of_le hd.2 hle⟩

/-- **A numeral is a numeral in any greater radix**, of a number that is no smaller. -/
theorem Spells.of_le (h : Spells radix cs n) (hle : radix ≤ radix') :
    ∃ n', Spells radix' cs n' ∧ n ≤ n' := by
  obtain ⟨sign, row, ds, hcs, hsign, hne, hrow, rfl⟩ := h
  have hvalue : Nat.ofDigits radix ds.reverse ≤ Nat.ofDigits radix' ds.reverse :=
    Nat.ofDigits_monotone _ hle
  exact ⟨_, ⟨sign, row, ds, hcs, hsign, hne, hrow.of_le hle, rfl⟩, hvalue⟩

/-- A character that is no digit and no sign does not stand in a numeral. -/
theorem not_spells_of_mem {c : Char} (hc : c ∈ cs) (hplus : c ≠ '+')
    (hdigit : digit? radix c = none) : ¬ Spells radix cs n := by
  rintro ⟨sign, row, ds, rfl, hsign, -, hrow, -⟩
  have hmem : c ∈ row := by
    rcases List.mem_append.1 hc with hmem | hmem
    · rcases hsign with rfl | rfl
      · cases hmem
      · exact absurd (List.mem_singleton.1 hmem) hplus
    · exact hmem
  obtain ⟨d, hd⟩ := exists_forall₂_iff.1 ⟨ds, hrow⟩ c hmem
  rw [← digit?_eq_some_iff, hdigit] at hd
  cases hd

end Text.Numeral

namespace Debugger

open Text.Numeral

/-- The word that a text spells in a radix. -/
def readWord (radix : Nat) (cs : List Char) : Option Word :=
  (read radix 0x100000000 cs).toOption.map (BitVec.ofNat 32)

section

variable {radix n : Nat} {cs : List Char} {w : Word}

theorem toOption_eq_some_iff {ε α : Type} {x : Except ε α} {a : α} :
    x.toOption = some a ↔ x = .ok a := by
  cases x <;> simp [Except.toOption]

/-- A text is read as the word whose number it spells. -/
theorem readWord_eq_some_iff (hradix : 0 < radix) :
    readWord radix cs = some w ↔ Spells radix cs w.toNat := by
  have hread (n : Nat) : (read radix 0x100000000 cs).toOption = some n ↔
      Spells radix cs n ∧ n < 2 ^ 32 := by
    rw [toOption_eq_some_iff]
    exact read_eq_ok_iff hradix (by decide)
  rw [readWord, Option.map_eq_some_iff]
  constructor
  · rintro ⟨n, hn, rfl⟩
    obtain ⟨hspells, hlt⟩ := (hread n).1 hn
    rwa [BitVec.toNat_ofNat, Nat.mod_eq_of_lt hlt]
  · intro hspells
    exact ⟨w.toNat, (hread _).2 ⟨hspells, w.isLt⟩, BitVec.ofNat_toNat ..⟩

/-- A numeral that is below the bound is read as its number, and any other as nothing. -/
theorem readWord_of_spells (hradix : 0 < radix) (h : Spells radix cs n) :
    readWord radix cs = if n < 2 ^ 32 then some (BitVec.ofNat 32 n) else none := by
  split
  · next hlt =>
    rw [readWord_eq_some_iff hradix, BitVec.toNat_ofNat, Nat.mod_eq_of_lt hlt]
    exact h
  · next hge =>
    rw [Option.eq_none_iff_forall_ne_some]
    intro w hw
    have hn : w.toNat = n := ((readWord_eq_some_iff hradix).1 hw).unique hradix h
    have hlt : w.toNat < 2 ^ 32 := w.isLt
    omega

theorem readWord_eq_none (hradix : 0 < radix) (h : ∀ n, ¬ Spells radix cs n) :
    readWord radix cs = none := by
  rw [Option.eq_none_iff_forall_ne_some]
  intro w hw
  exact h _ ((readWord_eq_some_iff hradix).1 hw)

/-- **A decimal numeral that is too large is too large in hexadecimal.** -/
theorem readWord_eq_none_of_decimal (h : Spells 10 cs n) (hn : 2 ^ 32 ≤ n) :
    readWord 16 cs = none := by
  obtain ⟨n', hspells, hle⟩ := h.of_le (show 10 ≤ 16 by decide)
  rw [readWord_of_spells (by decide) hspells, if_neg (by omega)]

end

theorem parseAddress_hexadecimal (r : List Char) :
    parseAddress ('0' :: 'x' :: r) = readWord 16 r := rfl

theorem parseAddress_plain {s : List Char} (h : ∀ r, s ≠ '0' :: 'x' :: r) :
    parseAddress s = (readWord 10 s).or (readWord 16 s) := by
  unfold parseAddress
  split
  · next r => exact absurd rfl (h r)
  · rfl

/-- **The debugger never misreads a decimal address.** After `0x` a text is read in hexadecimal.
Without it, a decimal numeral is read as its number, and refused if that is not below `2 ^ 32`; any
other text is read in hexadecimal. In each case a numeral has at most one plus sign and then one
digit at least, its value is below `2 ^ 32`, and any other text is refused. -/
theorem parseAddress_exact (s : List Char) :
    (∀ r, s = '0' :: 'x' :: r → ∀ w, parseAddress s = some w ↔ Spells 16 r w.toNat) ∧
    ((∀ r, s ≠ '0' :: 'x' :: r) →
      (∀ n, Spells 10 s n →
        parseAddress s = if n < 2 ^ 32 then some (BitVec.ofNat 32 n) else none) ∧
      ((∀ n, ¬ Spells 10 s n) → ∀ w, parseAddress s = some w ↔ Spells 16 s w.toNat)) := by
  refine ⟨?_, fun hplain => ⟨fun n hn => ?_, fun hnone w => ?_⟩⟩
  · rintro r rfl w
    rw [parseAddress_hexadecimal]
    exact readWord_eq_some_iff (by decide)
  · rw [parseAddress_plain hplain, readWord_of_spells (by decide) hn]
    split
    · rfl
    · next hge =>
      -- the second reading is of the same digits
      rw [readWord_eq_none_of_decimal hn (by omega)]
      rfl
  · rw [parseAddress_plain hplain, readWord_eq_none (by decide) hnone, Option.none_or]
    exact readWord_eq_some_iff (by decide)

/-- A sign after `0x`, a decimal numeral with a leading zero, the least one that is too large, and
a text that is hexadecimal only. -/
theorem parseAddress_exact_edge :
    parseAddress ['0', 'x', '+', 'f', 'F'] = some 0xff ∧
      (Spells 10 ['+', '0', '1', '0'] 10 ∧ parseAddress ['+', '0', '1', '0'] = some 10) ∧
      (Spells 10 ['4', '2', '9', '4', '9', '6', '7', '2', '9', '6'] (2 ^ 32) ∧
        parseAddress ['4', '2', '9', '4', '9', '6', '7', '2', '9', '6'] = none) ∧
      (∀ n, ¬ Spells 10 ['7', 'f'] n) ∧ parseAddress ['7', 'f'] = some 0x7f := by
  have hten : Spells 10 ['+', '0', '1', '0'] 10 :=
    ⟨['+'], ['0', '1', '0'], [0, 1, 0], rfl, .inr rfl, nofun, by unfold Row; decide, rfl⟩
  have hlarge : Spells 10 ['4', '2', '9', '4', '9', '6', '7', '2', '9', '6'] (2 ^ 32) :=
    ⟨[], _, [4, 2, 9, 4, 9, 6, 7, 2, 9, 6], rfl, .inl rfl, nofun, by unfold Row; decide, rfl⟩
  have hseven (n : Nat) : ¬ Spells 10 ['7', 'f'] n :=
    not_spells_of_mem (.tail _ (.head _)) (by decide) rfl
  have hff : Spells 16 ['+', 'f', 'F'] (0xff : Word).toNat :=
    ⟨['+'], ['f', 'F'], [15, 15], rfl, .inr rfl, nofun, by unfold Row; decide, rfl⟩
  have hseven' : Spells 16 ['7', 'f'] (0x7f : Word).toNat :=
    ⟨[], _, [7, 15], rfl, .inl rfl, nofun, by unfold Row; decide, rfl⟩
  obtain ⟨hmarked, -⟩ := parseAddress_exact ['0', 'x', '+', 'f', 'F']
  obtain ⟨-, hdecimal⟩ := parseAddress_exact ['+', '0', '1', '0']
  obtain ⟨-, hrefused⟩ := parseAddress_exact ['4', '2', '9', '4', '9', '6', '7', '2', '9', '6']
  obtain ⟨-, hother⟩ := parseAddress_exact ['7', 'f']
  exact ⟨(hmarked _ rfl _).2 hff, ⟨hten, (hdecimal nofun).1 10 hten⟩,
    ⟨hlarge, (hrefused nofun).1 _ hlarge⟩, hseven, ((hother nofun).2 hseven _).2 hseven'⟩

end Debugger

end TetrisMachine
