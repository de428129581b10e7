import GoMetadata.Json.Reader
import GoMetadata.Json.Writer
import Mathlib.Algebra.Group.Nat.Defs
import Mathlib.Tactic.SplitIfs

/-!
JSON strings read back. Every character is written so that the reader, standing in front of it,
takes exactly what was written for it; an escape is only read where more follows, which the closing
quote sees to.
-/

namespace GoMetadata

namespace Text

theorem hexValue?_digitChar {digit : Nat} (small : digit < 16) :
    hexValue? (Nat.digitChar digit) = some digit := by
  have all : ∀ digit < 16, hexValue? (Nat.digitChar digit) = some digit := by decide
  exact all digit small

theorem hexNumber?_append_singleton (digits : List Char) (c : Char) :
    hexNumber? (digits ++ [c]) =
      (hexNumber? digits).bind fun number =>
        (hexValue? c).map fun digit => 16 * number + digit := by
  rw [hexNumber?, List.foldl_append]
  change (do return 16 * (← hexNumber? digits) + (← hexValue? c)) = _
  cases hexNumber? digits <;> cases hexValue? c <;> rfl

theorem hexNumber?_hexText {width number : Nat} (small : number < 16 ^ width) :
    hexNumber? (hexText width number) = some number := by
  induction width generalizing number with
  | zero =>
    have zero : number = 0 := by omega
    rw [zero]
    rfl
  | succ width ih =>
    have fits : number / 16 < 16 ^ width := by
      rw [Nat.pow_succ] at small
      omega
    rw [hexText, hexNumber?_append_singleton, ih fits,
      hexValue?_digitChar (Nat.mod_lt number (by decide))]
    simp only [Option.bind_some, Option.map_some, Option.some.injEq]
    omega

end Text

namespace Json

theorem isHighSurrogate_iff {unit : Nat} :
    isHighSurrogate unit = true ↔ 0xd800 ≤ unit ∧ unit < 0xdc00 := by
  simp [isHighSurrogate]

theorem isLowSurrogate_iff {unit : Nat} :
    isLowSurrogate unit = true ↔ 0xdc00 ≤ unit ∧ unit < 0xe000 := by
  simp [isLowSurrogate]

section Unicode

variable (index : Nat) (next : Char) (more : List Char)

/-- A unit that is no first half stands for itself, whatever follows. -/
theorem readUnicode_hexText {unit : Nat} (small : unit < 0x10000)
    (single : isHighSurrogate unit = false) :
    readUnicode index (Text.hexText 4 unit ++ next :: more) = .ok (charOfUnit unit, 4) := by
  obtain ⟨a, b, c, d, digits⟩ : ∃ a b c d, Text.hexText 4 unit = [a, b, c, d] :=
    ⟨_, _, _, _, rfl⟩
  have number : Text.hexNumber? [a, b, c, d] = some unit := by
    rw [← digits]
    exact Text.hexNumber?_hexText small
  rw [digits]
  simp only [List.cons_append, List.nil_append, readUnicode, number, single]
  split <;> rfl

theorem readUnicode_pair {high low : Nat} (first : isHighSurrogate high = true)
    (second : isLowSurrogate low = true) :
    readUnicode index (Text.hexText 4 high ++ escapeUnit low ++ next :: more) =
      .ok (charOfPair high low, 10) := by
  have highSmall : high < 16 ^ 4 := by
    have bounds := isHighSurrogate_iff.1 first
    omega
  have lowSmall : low < 16 ^ 4 := by
    have bounds := isLowSurrogate_iff.1 second
    omega
  obtain ⟨a, b, c, d, digits⟩ : ∃ a b c d, Text.hexText 4 high = [a, b, c, d] :=
    ⟨_, _, _, _, rfl⟩
  obtain ⟨e, f, g, h, others⟩ : ∃ e f g h, Text.hexText 4 low = [e, f, g, h] :=
    ⟨_, _, _, _, rfl⟩
  have highNumber : Text.hexNumber? [a, b, c, d] = some high := by
    rw [← digits]
    exact Text.hexNumber?_hexText highSmall
  have lowNumber : Text.hexNumber? [e, f, g, h] = some low := by
    rw [← others]
    exact Text.hexNumber?_hexText lowSmall
  rw [escapeUnit, digits, others]
  simp only [List.cons_append, List.nil_append, readUnicode, highNumber, lowNumber, first, second,
    if_true]

end Unicode

section Characters

variable {start index : Nat} {read rest : List Char} {c : Char}

theorem readText_quote : readText start read index ('"' :: rest) =
    .ok (String.ofList read.reverse, ⟨rest, index + 1⟩) := by
  rw [readText]

theorem readText_simple {meant : Char} (other : c ≠ 'u') (escape : simpleEscape? c = some meant) :
    readText start read index ('\\' :: c :: rest) =
      readText start (meant :: read) (index + 2) rest := by
  rw [readText, escape]
  exact other

theorem readText_unicode {length : Nat} (unicode : readUnicode (index + 1) rest = .ok (c, length)) :
    readText start read index ('\\' :: 'u' :: rest) =
      readText start (c :: read) (index + 2 + length) (rest.drop length) := by
  rw [readText, unicode]

theorem readText_plain (noQuote : c ≠ '"') (noEscape : c ≠ '\\') (printable : 0x20 ≤ c.toNat) :
    readText start read index (c :: rest) = readText start (c :: read) (index + 1) rest := by
  have large : ¬c.toNat < 0x20 := by omega
  rw [readText, if_neg large]
  · exact noQuote
  · intro same
    exact absurd same noEscape
  · intro _ same
    exact absurd same noEscape
  · intro _ _ same
    exact absurd same noEscape

theorem charOfUnit_toNat (small : c.toNat < 0x10000) :
    isHighSurrogate c.toNat = false ∧ charOfUnit c.toNat = c := by
  have valid : c.toNat < 0xd800 ∨ 0xdfff < c.toNat ∧ c.toNat < 0x110000 := c.valid
  have high : isHighSurrogate c.toNat = false := by
    rw [Bool.eq_false_iff, Ne, isHighSurrogate_iff]
    omega
  have low : isLowSurrogate c.toNat = false := by
    rw [Bool.eq_false_iff, Ne, isLowSurrogate_iff]
    omega
  rw [charOfUnit, high, low]
  exact ⟨rfl, Char.ofNat_toNat c⟩

theorem length_escapeUnit (unit : Nat) : (escapeUnit unit).length = 6 :=
  congrArg (· + 2) (Text.length_hexText 4 unit)

theorem readText_escapeUnit {next : Char} (small : c.toNat < 0x10000) :
    readText start read index (escapeUnit c.toNat ++ next :: rest) =
      readText start (c :: read) (index + 6) (next :: rest) := by
  obtain ⟨single, same⟩ := charOfUnit_toNat small
  have unicode := readUnicode_hexText (index + 1) next rest small single
  have dropped : (Text.hexText 4 c.toNat ++ next :: rest).drop 4 = next :: rest :=
    List.drop_left' (Text.length_hexText 4 c.toNat)
  rw [same] at unicode
  rw [escapeUnit, List.cons_append, List.cons_append, readText_unicode unicode, dropped]

theorem readText_escapePair {next : Char} (large : 0x10000 ≤ c.toNat) :
    readText start read index (escapeUnit (0xd800 + (c.toNat - 0x10000) / 0x400) ++
        escapeUnit (0xdc00 + (c.toNat - 0x10000) % 0x400) ++ next :: rest) =
      readText start (c :: read) (index + 12) (next :: rest) := by
  have valid : c.toNat < 0xd800 ∨ 0xdfff < c.toNat ∧ c.toNat < 0x110000 := c.valid
  generalize splitHigh : 0xd800 + (c.toNat - 0x10000) / 0x400 = high
  generalize splitLow : 0xdc00 + (c.toNat - 0x10000) % 0x400 = low
  have unicode := readUnicode_pair (index + 1) next rest
    (isHighSurrogate_iff.2 (by omega : 0xd800 ≤ high ∧ high < 0xdc00))
    (isLowSurrogate_iff.2 (by omega : 0xdc00 ≤ low ∧ low < 0xe000))
  have same : charOfPair high low = c := by
    have sum : 0x10000 + (high - 0xd800) * 0x400 + (low - 0xdc00) = c.toNat := by omega
    rw [charOfPair, sum, Char.ofNat_toNat]
  have dropped :
      (Text.hexText 4 high ++ escapeUnit low ++ next :: rest).drop 10 = next :: rest := by
    apply List.drop_left'
    rw [List.length_append, Text.length_hexText, length_escapeUnit]
  rw [same] at unicode
  rw [escapeUnit, List.cons_append, List.cons_append, List.cons_append, List.cons_append,
    readText_unicode unicode, dropped]

theorem readText_escapeChar (c next : Char) :
    readText start read index (escapeChar c ++ next :: rest) =
      readText start (c :: read) (index + (escapeChar c).length) (next :: rest) := by
  dsimp only [escapeChar]
  split_ifs with quote backslash lineFeed carriageReturn tab backspace formFeed printable small
  · rw [quote]
    exact readText_simple (by decide) rfl
  · rw [backslash]
    exact readText_simple (by decide) rfl
  · rw [lineFeed]
    exact readText_simple (by decide) rfl
  · rw [carriageReturn]
    exact readText_simple (by decide) rfl
  · rw [tab]
    exact readText_simple (by decide) rfl
  · have same : c = '\x08' := Char.toNat_inj.1 backspace
    rw [same]
    exact readText_simple (by decide) rfl
  · have same : c = '\x0c' := Char.toNat_inj.1 formFeed
    rw [same]
    exact readText_simple (by decide) rfl
  · exact readText_plain quote backslash printable.1
  · rw [length_escapeUnit]
    exact readText_escapeUnit small
  · rw [List.length_append, length_escapeUnit, length_escapeUnit]
    exact readText_escapePair (Nat.le_of_not_lt small)

theorem readText_flatMap_escapeChar (text : List Char) :
    readText start read index (text.flatMap escapeChar ++ '"' :: rest) =
      .ok (String.ofList (read.reverse ++ text),
        ⟨rest, index + (text.flatMap escapeChar).length + 1⟩) := by
  induction text generalizing read index with
  | nil =>
    rw [List.append_nil]
    exact readText_quote
  | cons c text ih =>
    have more : ∃ next following, text.flatMap escapeChar ++ '"' :: rest = next :: following := by
      cases text.flatMap escapeChar with
      | nil => exact ⟨_, _, rfl⟩
      | cons next following => exact ⟨_, _, rfl⟩
    obtain ⟨next, following, ahead⟩ := more
    rw [List.flatMap_cons, List.append_assoc, ahead, readText_escapeChar, ← ahead, ih,
      List.reverse_cons, List.append_assoc, List.length_append, Nat.add_assoc index]
    rfl

theorem writeText_append (text after : List Char) :
    writeText text ++ after = '"' :: (text.flatMap escapeChar ++ '"' :: after) := by
  rw [writeText, List.append_assoc]
  rfl

theorem length_writeText (text : List Char) :
    (writeText text).length = (text.flatMap escapeChar).length + 2 := by
  rw [writeText, List.length_append]
  exact Nat.succ_add _ 1

theorem readText_writeText (text : String) :
    readText index [] (index + 1) (text.toList.flatMap escapeChar ++ '"' :: rest) =
      .ok (text, ⟨rest, index + (writeText text.toList).length⟩) := by
  rw [readText_flatMap_escapeChar, length_writeText, List.reverse_nil, List.nil_append,
    String.ofList_toList]
  congr 3
  omega

end Characters

end Json

end GoMetadata
