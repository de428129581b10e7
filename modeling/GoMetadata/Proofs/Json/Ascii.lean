import GoMetadata.Proofs.Json.RoundTrip
import GoMetadata.Text.Basic

/-!
The characters of JSON text: all of them are printable ASCII. Such a text has one line, so nothing
changes in it when the line ends of a file are made uniform.
-/

namespace GoMetadata

namespace Text

theorem exists_digit_of_mem_hexText {width number : Nat} {c : Char}
    (member : c ∈ hexText width number) : ∃ digit < 16, c = Nat.digitChar digit := by
  induction width generalizing number with
  | zero => cases member
  | succ width ih =>
    rw [hexText, List.mem_append, List.mem_singleton] at member
    rcases member with earlier | rfl
    · exact ih earlier
    · exact ⟨number % 16, Nat.mod_lt number (by decide), rfl⟩

theorem unifyLineEnds_of_not_mem {text : List Char} (none : '\r' ∉ text) :
    unifyLineEnds text = text := by
  induction text with
  | nil => rfl
  | cons c text ih =>
    rw [List.mem_cons, not_or] at none
    have other : c ≠ '\r' := Ne.symm none.1
    rw [unifyLineEnds, ih none.2]
    · intro _ same
      exact absurd same other
    · exact other

end Text

namespace Json

def isAscii (c : Char) : Bool :=
  0x20 ≤ c.toNat && c.toNat < 0x7f

theorem isAscii_iff {c : Char} : isAscii c = true ↔ 0x20 ≤ c.toNat ∧ c.toNat < 0x7f := by
  simp [isAscii]

theorem isAscii_of_isDigit {c : Char} (digit : c.isDigit = true) : isAscii c = true := by
  have lower : 48 ≤ c.toNat := (Char.isDigit_iff_toNat.1 digit).1
  have upper : c.toNat ≤ 57 := (Char.isDigit_iff_toNat.1 digit).2
  rw [isAscii_iff]
  omega

theorem isAscii_of_mem_escapeUnit {unit : Nat} {c : Char} (member : c ∈ escapeUnit unit) :
    isAscii c = true := by
  rw [escapeUnit, List.mem_cons, List.mem_cons] at member
  rcases member with rfl | rfl | digits
  · decide
  · decide
  · obtain ⟨digit, small, rfl⟩ := Text.exists_digit_of_mem_hexText digits
    have all : ∀ digit < 16, isAscii (Nat.digitChar digit) = true := by decide
    exact all digit small

theorem isAscii_of_mem_escapeChar {c d : Char} (member : d ∈ escapeChar c) : isAscii d = true := by
  have simple {mark : Char} (ascii : isAscii mark = true) (found : d ∈ ['\\', mark]) :
      isAscii d = true := by
    rw [List.mem_cons, List.mem_singleton] at found
    rcases found with rfl | rfl
    · decide
    · exact ascii
  dsimp only [escapeChar] at member
  split_ifs at member with quote backslash lineFeed carriageReturn tab backspace formFeed ascii
    small
  · exact simple (by decide) member
  · exact simple (by decide) member
  · exact simple (by decide) member
  · exact simple (by decide) member
  · exact simple (by decide) member
  · exact simple (by decide) member
  · exact simple (by decide) member
  · rw [List.mem_singleton.1 member, isAscii_iff]
    exact ascii
  · exact isAscii_of_mem_escapeUnit member
  · rcases List.mem_append.1 member with high | low
    · exact isAscii_of_mem_escapeUnit high
    · exact isAscii_of_mem_escapeUnit low

theorem isAscii_of_mem_writeText {text : List Char} {c : Char} (member : c ∈ writeText text) :
    isAscii c = true := by
  rw [writeText, List.mem_append, List.mem_cons, List.mem_singleton, List.mem_flatMap] at member
  rcases member with (rfl | ⟨written, -, escaped⟩) | rfl
  · decide
  · exact isAscii_of_mem_escapeChar escaped
  · decide

section

variable {separators : Separators} {c : Char}

theorem mem_writeItems {items : List Json} (member : c ∈ writeItems separators items) :
    c ∈ separators.item ∨ ∃ item ∈ items, c ∈ write separators item := by
  induction items with
  | nil => cases member
  | cons item items ih =>
    cases items with
    | nil => exact .inr ⟨item, List.mem_cons_self, by rwa [writeItems] at member⟩
    | cons next items =>
      rw [writeItems_cons_cons, List.mem_append, List.mem_append] at member
      rcases member with (first | between) | later
      · exact .inr ⟨item, List.mem_cons_self, first⟩
      · exact .inl between
      · rcases ih later with between | ⟨other, listed, written⟩
        · exact .inl between
        · exact .inr ⟨other, List.mem_cons_of_mem _ listed, written⟩

theorem mem_writeEntries {entries : List (String × Json)}
    (member : c ∈ writeEntries separators entries) :
    c ∈ separators.item ∨ ∃ entry ∈ entries, c ∈ writeEntry separators entry := by
  induction entries with
  | nil => cases member
  | cons entry entries ih =>
    cases entries with
    | nil => exact .inr ⟨entry, List.mem_cons_self, by rwa [writeEntries] at member⟩
    | cons next entries =>
      rw [writeEntries_cons_cons, List.mem_append, List.mem_append] at member
      rcases member with (first | between) | later
      · exact .inr ⟨entry, List.mem_cons_self, first⟩
      · exact .inl between
      · rcases ih later with between | ⟨other, listed, written⟩
        · exact .inl between
        · exact .inr ⟨other, List.mem_cons_of_mem _ listed, written⟩

theorem Separators.IsPlain.isAscii (plain : separators.IsPlain)
    (member : c ∈ separators.item ∨ c ∈ separators.key) : isAscii c = true := by
  obtain ⟨⟨blanks, item, itemSpaces⟩, others, key, keySpaces⟩ := plain
  rw [item, key, List.mem_cons, List.mem_cons] at member
  rcases member with (rfl | blank) | rfl | blank
  · decide
  · rw [itemSpaces c blank]
    decide
  · decide
  · rw [keySpaces c blank]
    decide

theorem isAscii_of_mem_write (plain : separators.IsPlain) {value : Json}
    (whole : value.Whole) (member : c ∈ write separators value) : isAscii c = true := by
  induction whole with
  | null =>
    have all : "null".toList.all isAscii = true := by decide
    exact List.all_eq_true.1 all c member
  | bool value =>
    have all : ∀ value : Bool,
        (if value then "true" else "false").toList.all isAscii = true := by
      decide
    exact List.all_eq_true.1 (all value) c member
  | int value =>
    rw [write, toList_toString_int, List.mem_append] at member
    rcases member with sign | digit
    · split at sign
      · rw [List.mem_singleton.1 sign]
        decide
      · cases sign
    · exact isAscii_of_isDigit (Numeral.all_isDigit_toDigits _ c digit)
  | text value => exact isAscii_of_mem_writeText member
  | array all ih =>
    rw [write, List.mem_append, List.mem_cons, List.mem_singleton] at member
    rcases member with (rfl | inside) | rfl
    · decide
    · rcases mem_writeItems inside with between | ⟨item, listed, written⟩
      · exact plain.isAscii (.inl between)
      · exact ih item listed written
    · decide
  | object distinct all ih =>
    rw [write, List.mem_append, List.mem_cons, List.mem_singleton] at member
    rcases member with (rfl | inside) | rfl
    · decide
    · rcases mem_writeEntries inside with between | ⟨entry, listed, written⟩
      · exact plain.isAscii (.inl between)
      · rw [writeEntry, List.mem_append, List.mem_append] at written
        rcases written with (key | mark) | value
        · exact isAscii_of_mem_writeText key
        · exact plain.isAscii (.inr mark)
        · exact ih entry listed value
    · decide

/-- What is written keeps its characters in a text file. -/
theorem unifyLineEnds_write (plain : separators.IsPlain) {value : Json}
    (whole : value.Whole) :
    Text.unifyLineEnds (write separators value) = write separators value := by
  apply Text.unifyLineEnds_of_not_mem
  intro member
  have ascii := isAscii_of_mem_write plain whole member
  cases ascii

end

end Json

end GoMetadata
