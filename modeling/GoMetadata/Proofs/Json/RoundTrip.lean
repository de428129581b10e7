import GoMetadata.Proofs.Json.Regular
import GoMetadata.Proofs.Json.Strings

/-!
JSON values read back from their text, if this says them in full: they are regular, and no number in
them has a fraction.
-/

namespace GoMetadata

namespace Json

structure Separators.IsPlain (separators : Separators) : Prop where
  item : ∃ blanks, separators.item = ',' :: blanks ∧ ∀ c ∈ blanks, c = ' '
  key : ∃ blanks, separators.key = ':' :: blanks ∧ ∀ c ∈ blanks, c = ' '

theorem isPlain_compact : compact.IsPlain :=
  ⟨⟨[], rfl, nofun⟩, ⟨[], rfl, nofun⟩⟩

theorem isPlain_spaced : spaced.IsPlain :=
  ⟨⟨[' '], rfl, fun _ => List.mem_singleton.1⟩, ⟨[' '], rfl, fun _ => List.mem_singleton.1⟩⟩

theorem length_mark_pos {mark : Char} {separator : List Char}
    (plain : ∃ blanks, separator = mark :: blanks ∧ ∀ c ∈ blanks, c = ' ') :
    0 < separator.length := by
  obtain ⟨blanks, rfl, -⟩ := plain
  exact Nat.succ_pos _

section Space

variable {c : Char} {rest : List Char} {index : Nat}

theorem skipSpace_append (blanks : List Char) (all : ∀ c ∈ blanks, c = ' ')
    (other : isSpace c = false) :
    skipSpace ⟨blanks ++ c :: rest, index⟩ = ⟨c :: rest, index + blanks.length⟩ := by
  have spaces : ∀ c ∈ blanks, isSpace c = true := by
    intro c member
    rw [all c member]
    rfl
  have taken : (blanks ++ c :: rest).takeWhile isSpace = blanks := by
    rw [List.takeWhile_append_of_pos spaces, List.takeWhile_cons, other]
    exact List.append_nil blanks
  simp only [skipSpace, taken, List.drop_left]

theorem skipSpace_cons (other : isSpace c = false) :
    skipSpace ⟨c :: rest, index⟩ = ⟨c :: rest, index⟩ :=
  skipSpace_append [] nofun other

end Space

section Starts

variable {separators : Separators} {value : Json}

structure Opens (c : Char) : Prop where
  notSpace : isSpace c = false
  notClosing : c ≠ ']'
  notMark : c ≠ '\ufeff'

theorem opens_of_isDigit {c : Char} (digit : c.isDigit = true) : Opens c := by
  have other : ∀ d : Char, d.isDigit = false → c ≠ d := by
    intro d noDigit same
    rw [same, noDigit] at digit
    cases digit
  refine ⟨?_, other _ (by decide), other _ (by decide)⟩
  simp [isSpace, other ' ' (by decide), other '\t' (by decide), other '\n' (by decide),
    other '\r' (by decide)]

/-- A value of which no number has a fraction and no key comes twice. Its integers may have any
number of digits. -/
inductive Whole : Json → Prop where
  | null : Whole null
  | bool (value : Bool) : Whole (bool value)
  | int (value : Int) : Whole (int value)
  | text (value : String) : Whole (text value)
  | array {items : List Json} (all : ∀ item ∈ items, Whole item) : Whole (array items)
  | object {entries : List (String × Json)} (distinct : (entries.map Prod.fst).Nodup)
      (all : ∀ entry ∈ entries, Whole entry.2) : Whole (object entries)

theorem whole_of_lossless (lossless : value.Lossless) : value.Whole := by
  induction lossless with
  | null => exact .null
  | bool value => exact .bool value
  | int small => exact .int _
  | float asked value => cases asked
  | text value => exact .text value
  | array all ih => exact .array ih
  | object distinct all ih => exact .object distinct ih

theorem exists_write_eq_cons (separators : Separators) (whole : value.Whole) :
    ∃ c rest, write separators value = c :: rest ∧ Opens c := by
  cases whole with
  | null => exact ⟨_, _, rfl, by constructor <;> decide⟩
  | bool value => cases value <;> exact ⟨_, _, rfl, by constructor <;> decide⟩
  | int value =>
    obtain ⟨c, digits, written, digit⟩ := exists_toDigits_eq_cons value.natAbs
    rw [write, toList_toString_int, written]
    by_cases negative : value < 0
    · rw [if_pos negative]
      exact ⟨_, _, rfl, by constructor <;> decide⟩
    · rw [if_neg negative]
      exact ⟨_, _, rfl, opens_of_isDigit digit⟩
  | text value =>
    rw [write, writeText]
    exact ⟨_, _, rfl, by constructor <;> decide⟩
  | array all =>
    rw [write]
    exact ⟨_, _, rfl, by constructor <;> decide⟩
  | object distinct all =>
    rw [write]
    exact ⟨_, _, rfl, by constructor <;> decide⟩

theorem writeItems_cons_cons (item next : Json) (items : List Json) :
    writeItems separators (item :: next :: items) =
      write separators item ++ separators.item ++ writeItems separators (next :: items) := by
  rw [writeItems]
  nofun

theorem writeEntries_cons_cons (entry next : String × Json) (entries : List (String × Json)) :
    writeEntries separators (entry :: next :: entries) =
      writeEntry separators entry ++ separators.item ++
        writeEntries separators (next :: entries) := by
  rw [writeEntries]
  nofun

theorem exists_writeItems_eq_cons (separators : Separators) {item : Json} (items : List Json)
    (whole : item.Whole) :
    ∃ c rest, writeItems separators (item :: items) = c :: rest ∧ Opens c := by
  obtain ⟨c, rest, written, opens⟩ := exists_write_eq_cons separators whole
  cases items with
  | nil => exact ⟨c, rest, by rw [writeItems, written], opens⟩
  | cons next items =>
    rw [writeItems_cons_cons, written]
    exact ⟨c, _, rfl, opens⟩

theorem exists_writeEntries_eq_cons (separators : Separators) (entry : String × Json)
    (entries : List (String × Json)) :
    ∃ rest, writeEntries separators (entry :: entries) = '"' :: rest := by
  cases entries with
  | nil =>
    rw [writeEntries, writeEntry, writeText]
    exact ⟨_, rfl⟩
  | cons next entries =>
    rw [writeEntries_cons_cons, writeEntry, writeText]
    exact ⟨_, rfl⟩

end Starts

section Scalars

variable {room index : Nat} {after : List Char}

theorem readValue_eq_readScalar {cursor : Cursor} (noText : cursor.rest.head? ≠ some '"')
    (noObject : cursor.rest.head? ≠ some '\x7b') (noArray : cursor.rest.head? ≠ some '[') :
    readValue (room + 1) cursor = readScalar cursor := by
  rw [readValue]
  split
  next found => exact absurd (congrArg List.head? found) noText
  next found => exact absurd (congrArg List.head? found) noObject
  next found => exact absurd (congrArg List.head? found) noArray
  next => rfl

theorem readValue_eq_readNumber {c : Char} (digit : c.isDigit = true) (rest : List Char)
    (negative : Bool) :
    readValue (room + 1) ⟨(if negative then ['-'] else []) ++ c :: rest, index⟩ =
      readNumber ⟨(if negative then ['-'] else []) ++ c :: rest, index⟩ := by
  have other : ∀ d : Char, d.isDigit = false → d ≠ c := by
    intro d noDigit same
    rw [← same, noDigit] at digit
    cases digit
  have unnamed : (names.find? fun entry =>
      entry.1.isPrefixOf ((if negative then ['-'] else []) ++ c :: rest)) = none := by
    cases negative <;>
      simp [names, List.isPrefixOf, other 'n' (by decide), other 't' (by decide),
        other 'f' (by decide), other 'N' (by decide), other 'I' (by decide), other '-' (by decide)]
  have scalar : readValue (room + 1) ⟨(if negative then ['-'] else []) ++ c :: rest, index⟩ =
      readScalar ⟨(if negative then ['-'] else []) ++ c :: rest, index⟩ := by
    cases negative with
    | true => apply readValue_eq_readScalar <;> simp
    | false =>
      apply readValue_eq_readScalar <;>
        simp [(other '"' (by decide)).symm, (other '\x7b' (by decide)).symm,
          (other '[' (by decide)).symm]
  rw [scalar, readScalar, unnamed]

theorem readValue_toString (value : Int) :
    readValue (room + 1) ⟨(toString value).toList ++ after, index⟩ =
      readNumber ⟨(toString value).toList ++ after, index⟩ := by
  obtain ⟨c, digits, written, digit⟩ := exists_toDigits_eq_cons value.natAbs
  have text : (toString value).toList ++ after =
      (if decide (value < 0) then ['-'] else []) ++ c :: (digits ++ after) := by
    rw [toList_toString_int, written]
    simp
  rw [text]
  exact readValue_eq_readNumber digit (digits ++ after) (decide (value < 0))

theorem readValue_text (text : String) :
    readValue (room + 1) ⟨writeText text.toList ++ after, index⟩ =
      .ok (.text text, ⟨after, index + (writeText text.toList).length⟩) := by
  rw [writeText_append, readValue]
  simp only [readText_writeText, Except.map]

end Scalars

section Containers

variable {separators : Separators} {room index : Nat} {after rest : List Char} {c : Char}

/-- In any room that is as large as its text, a value is read back from in front of what may follow
it. -/
def ReadsBack (separators : Separators) (value : Json) : Prop :=
  ∀ room index after, (write separators value).length ≤ room → Ends after →
    readValue room ⟨write separators value ++ after, index⟩ =
      .ok (value, ⟨after, index + (write separators value).length⟩)

def continueItems (room : Nat) (read : List Json) (next : Cursor) :
    Except Fault (Json × Cursor) :=
  match next.rest with
  | ']' :: rest => .ok (.array read.reverse, ⟨rest, next.index + 1⟩)
  | ',' :: rest => readItems room read (skipSpace ⟨rest, next.index + 1⟩)
  | _ => complain .comma next.index

def continueEntries (room : Nat) (read : List (String × Json)) (next : Cursor) :
    Except Fault (Json × Cursor) :=
  match next.rest with
  | '\x7d' :: rest => .ok (.object read, ⟨rest, next.index + 1⟩)
  | ',' :: rest => readEntries room read (skipSpace ⟨rest, next.index + 1⟩)
  | _ => complain .comma next.index

theorem readItems_succ (room : Nat) (read : List Json) (cursor : Cursor) :
    readItems (room + 1) read cursor = (do
      let (item, next) ← readValue room cursor
      continueItems room (item :: read) (skipSpace next)) :=
  rfl

theorem readEntries_succ (room : Nat) (read : List (String × Json)) (rest : List Char)
    (index : Nat) :
    readEntries (room + 1) read ⟨'"' :: rest, index⟩ = (do
      let (key, next) ← readText index [] (index + 1) rest
      let next := skipSpace next
      match next.rest with
      | ':' :: rest =>
        let (value, next) ← readValue room (skipSpace ⟨rest, next.index + 1⟩)
        continueEntries room (putEntry key value read) (skipSpace next)
      | _ => complain .colon next.index) :=
  rfl

theorem readItems_of_readValue {cursor : Cursor} {item : Json} (read : List Json)
    (first : readValue room cursor = .ok (item, ⟨c :: rest, index⟩)) (other : isSpace c = false) :
    readItems (room + 1) read cursor = continueItems room (item :: read) ⟨c :: rest, index⟩ := by
  rw [readItems_succ, first]
  exact congrArg (continueItems room (item :: read)) (skipSpace_cons other)

theorem readEntries_writeEntry (index : Nat) (plain : separators.IsPlain) {key : String}
    {value : Json} (read : List (String × Json)) (whole : value.Whole) :
    readEntries (room + 1) read ⟨writeEntry separators (key, value) ++ after, index⟩ = (do
      let (found, next) ← readValue room ⟨write separators value ++ after,
        index + ((writeText key.toList).length + separators.key.length)⟩
      continueEntries room (putEntry key found read) (skipSpace next)) := by
  obtain ⟨blanks, mark, spaces⟩ := plain.key
  obtain ⟨d, more, written, opens⟩ := exists_write_eq_cons separators whole
  have text : writeEntry separators (key, value) ++ after =
      '"' :: (key.toList.flatMap escapeChar ++ '"' ::
        (':' :: (blanks ++ (write separators value ++ after)))) := by
    rw [writeEntry, mark, List.append_assoc, List.append_assoc, writeText_append, List.cons_append]
  have inside (place : Nat) : skipSpace ⟨blanks ++ (write separators value ++ after), place⟩ =
      ⟨write separators value ++ after, place + blanks.length⟩ := by
    rw [written]
    exact skipSpace_append blanks spaces opens.notSpace
  rw [text, readEntries_succ, mark, List.length_cons, Nat.add_comm blanks.length 1]
  simp only [readText_writeText, bind, Except.bind, skipSpace_cons (rfl : isSpace ':' = false),
    inside, Nat.add_assoc]

theorem ReadsBack.entry {key : String} {value : Json} (back : ReadsBack separators value)
    (plain : separators.IsPlain) (whole : value.Whole) (read : List (String × Json)) (index : Nat)
    (fits : (writeEntry separators (key, value)).length ≤ room) (ends : Ends (c :: rest)) :
    readEntries (room + 1) read ⟨writeEntry separators (key, value) ++ c :: rest, index⟩ =
      continueEntries room (putEntry key value read)
        ⟨c :: rest, index + (writeEntry separators (key, value)).length⟩ := by
  have other : isSpace c = false := by
    obtain rfl | rfl | rfl := ends c rfl <;> rfl
  have length : (writeEntry separators (key, value)).length =
      (writeText key.toList).length + separators.key.length + (write separators value).length := by
    simp only [writeEntry, List.length_append]
  have large : (write separators value).length ≤ room := by omega
  rw [readEntries_writeEntry index plain read whole, back room _ _ large ends, length,
    Nat.add_assoc index]
  exact congrArg (continueEntries room (putEntry key value read)) (skipSpace_cons other)

theorem ReadsBack.items {item : Json} (back : ReadsBack separators item)
    (plain : separators.IsPlain) {next : Json} (whole : next.Whole) (items read : List Json)
    (index : Nat) (after : List Char) (fits : (write separators item).length ≤ room) :
    readItems (room + 1) read
        ⟨writeItems separators (item :: next :: items) ++ ']' :: after, index⟩ =
      readItems room (item :: read)
        ⟨writeItems separators (next :: items) ++ ']' :: after,
          index + ((write separators item).length + separators.item.length)⟩ := by
  obtain ⟨blanks, mark, spaces⟩ := plain.item
  obtain ⟨d, more, written, opens⟩ := exists_writeItems_eq_cons separators items whole
  have ends := ends_cons (.inl rfl)
    (blanks ++ (writeItems separators (next :: items) ++ ']' :: after))
  have inside (place : Nat) :
      skipSpace ⟨blanks ++ (writeItems separators (next :: items) ++ ']' :: after), place⟩ =
        ⟨writeItems separators (next :: items) ++ ']' :: after, place + blanks.length⟩ := by
    rw [written]
    exact skipSpace_append blanks spaces opens.notSpace
  have step := readItems_of_readValue read (back room index _ fits ends) rfl
  rw [writeItems_cons_cons, mark]
  simp only [List.append_assoc, List.cons_append] at step ⊢
  rw [step]
  simp only [continueItems, inside, List.length_cons, Nat.add_assoc, Nat.add_comm 1]

theorem ReadsBack.entries {entry : String × Json} (back : ReadsBack separators entry.2)
    (plain : separators.IsPlain) (whole : entry.2.Whole) (next : String × Json)
    (entries read : List (String × Json)) (index : Nat) (after : List Char)
    (fits : (writeEntry separators entry).length ≤ room) :
    readEntries (room + 1) read
        ⟨writeEntries separators (entry :: next :: entries) ++ '\x7d' :: after, index⟩ =
      readEntries room (putEntry entry.1 entry.2 read)
        ⟨writeEntries separators (next :: entries) ++ '\x7d' :: after,
          index + ((writeEntry separators entry).length + separators.item.length)⟩ := by
  obtain ⟨blanks, mark, spaces⟩ := plain.item
  obtain ⟨more, written⟩ := exists_writeEntries_eq_cons separators next entries
  have ends := ends_cons (.inl rfl)
    (blanks ++ (writeEntries separators (next :: entries) ++ '\x7d' :: after))
  have inside (place : Nat) :
      skipSpace
          ⟨blanks ++ (writeEntries separators (next :: entries) ++ '\x7d' :: after), place⟩ =
        ⟨writeEntries separators (next :: entries) ++ '\x7d' :: after, place + blanks.length⟩ := by
    rw [written]
    exact skipSpace_append blanks spaces rfl
  have step := back.entry plain whole read index fits ends
  rw [writeEntries_cons_cons, mark]
  simp only [List.append_assoc, List.cons_append] at step ⊢
  rw [step]
  simp only [continueEntries, inside, List.length_cons, Nat.add_assoc, Nat.add_comm 1]

theorem readItems_writeItems (plain : separators.IsPlain) {item : Json} {items : List Json}
    (all : ∀ value ∈ item :: items, value.Whole ∧ ReadsBack separators value)
    (read : List Json) (index : Nat) (after : List Char)
    (fits : (writeItems separators (item :: items)).length < room) :
    readItems room read ⟨writeItems separators (item :: items) ++ ']' :: after, index⟩ =
      .ok (.array (read.reverse ++ item :: items),
        ⟨after, index + (writeItems separators (item :: items)).length + 1⟩) := by
  induction items generalizing item room read index with
  | nil =>
    obtain ⟨-, back⟩ := all item List.mem_cons_self
    obtain ⟨room, rfl⟩ := Nat.exists_eq_add_one_of_ne_zero (by omega : room ≠ 0)
    rw [writeItems] at fits ⊢
    have ends : Ends (']' :: after) := ends_cons (.inr (.inl rfl)) after
    rw [readItems_of_readValue read (back room index _ (by omega) ends) rfl]
    simp only [continueItems, List.reverse_cons]
  | cons next items ih =>
    obtain ⟨⟨-, back⟩, others⟩ := List.forall_mem_cons.1 all
    obtain ⟨room, rfl⟩ := Nat.exists_eq_add_one_of_ne_zero (by omega : room ≠ 0)
    have positive := length_mark_pos plain.item
    have length := congrArg List.length (@writeItems_cons_cons separators item next items)
    simp only [List.length_append] at length
    have whole := (others next List.mem_cons_self).1
    rw [back.items plain whole items read index after (by omega),
      ih others (item :: read) _ (by omega), length]
    simp only [List.reverse_cons, List.append_assoc, List.singleton_append, Nat.add_assoc]

theorem readEntries_writeEntries (plain : separators.IsPlain) {entry : String × Json}
    {entries : List (String × Json)}
    (all : ∀ found ∈ entry :: entries, found.2.Whole ∧ ReadsBack separators found.2)
    (read : List (String × Json)) (index : Nat) (after : List Char)
    (distinct : ((read ++ entry :: entries).map Prod.fst).Nodup)
    (fits : (writeEntries separators (entry :: entries)).length < room) :
    readEntries room read ⟨writeEntries separators (entry :: entries) ++ '\x7d' :: after, index⟩ =
      .ok (.object (read ++ entry :: entries),
        ⟨after, index + (writeEntries separators (entry :: entries)).length + 1⟩) := by
  have fresh := putEntry_of_not_mem (not_mem_of_nodup_append distinct)
  induction entries generalizing entry room read index with
  | nil =>
    obtain ⟨whole, back⟩ := all entry List.mem_cons_self
    obtain ⟨room, rfl⟩ := Nat.exists_eq_add_one_of_ne_zero (by omega : room ≠ 0)
    rw [writeEntries] at fits ⊢
    have ends : Ends ('\x7d' :: after) := ends_cons (.inr (.inr rfl)) after
    have enough : (writeEntry separators entry).length ≤ room := by omega
    rw [back.entry plain whole read index enough ends, fresh]
    simp only [continueEntries]
  | cons next entries ih =>
    obtain ⟨⟨whole, back⟩, others⟩ := List.forall_mem_cons.1 all
    obtain ⟨room, rfl⟩ := Nat.exists_eq_add_one_of_ne_zero (by omega : room ≠ 0)
    have positive := length_mark_pos plain.item
    have length := congrArg List.length (@writeEntries_cons_cons separators entry next entries)
    simp only [List.length_append] at length
    rw [List.append_cons] at distinct
    rw [back.entries plain whole next entries read index after (by omega), fresh,
      ih others (read ++ [entry]) _ distinct (by omega)
        (putEntry_of_not_mem (not_mem_of_nodup_append distinct)), length]
    simp only [List.append_assoc, List.singleton_append, Nat.add_assoc]

theorem write_array_append (items : List Json) (after : List Char) :
    write separators (.array items) ++ after =
      '[' :: (writeItems separators items ++ ']' :: after) := by
  simp [write]

theorem write_object_append (entries : List (String × Json)) (after : List Char) :
    write separators (.object entries) ++ after =
      '\x7b' :: (writeEntries separators entries ++ '\x7d' :: after) := by
  simp [write]

theorem readValue_array {item : Json} (whole : item.Whole) (items : List Json) :
    readValue (room + 1) ⟨write separators (.array (item :: items)) ++ after, index⟩ =
      readItems room []
        ⟨writeItems separators (item :: items) ++ ']' :: after, index + 1⟩ := by
  obtain ⟨c, more, written, opens⟩ := exists_writeItems_eq_cons separators items whole
  rw [write_array_append, readValue, written, List.cons_append]
  simp only [skipSpace_cons opens.notSpace]
  split
  next closed => exact absurd (List.cons.inj closed).1 opens.notClosing
  next => rfl

theorem readValue_object (entry : String × Json) (entries : List (String × Json)) :
    readValue (room + 1) ⟨write separators (.object (entry :: entries)) ++ after, index⟩ =
      readEntries room []
        ⟨writeEntries separators (entry :: entries) ++ '\x7d' :: after, index + 1⟩ := by
  obtain ⟨more, written⟩ := exists_writeEntries_eq_cons separators entry entries
  rw [write_object_append, readValue, written, List.cons_append]
  simp only [skipSpace_cons (rfl : isSpace '"' = false)]
  rfl

theorem length_write_array (items : List Json) :
    (write separators (.array items)).length = (writeItems separators items).length + 1 + 1 := by
  simp [write]

theorem length_write_object (entries : List (String × Json)) :
    (write separators (.object entries)).length =
      (writeEntries separators entries).length + 1 + 1 := by
  simp [write]

theorem readsBack_array (plain : separators.IsPlain) {items : List Json}
    (all : ∀ item ∈ items, item.Whole ∧ ReadsBack separators item) :
    ReadsBack separators (.array items) := by
  intro room index after fits ends
  rw [length_write_array] at fits ⊢
  obtain ⟨room, rfl⟩ := Nat.exists_eq_add_one_of_ne_zero (by omega : room ≠ 0)
  cases items with
  | nil =>
    rw [write_array_append, readValue]
    simp only [writeItems, List.nil_append, skipSpace_cons (rfl : isSpace ']' = false)]
    rfl
  | cons item items =>
    rw [readValue_array (all item List.mem_cons_self).1,
      readItems_writeItems plain all [] (index + 1) after (by omega)]
    simp only [List.reverse_nil, List.nil_append]
    congr 3
    omega

theorem readsBack_object (plain : separators.IsPlain) {entries : List (String × Json)}
    (distinct : (entries.map Prod.fst).Nodup)
    (all : ∀ entry ∈ entries, entry.2.Whole ∧ ReadsBack separators entry.2) :
    ReadsBack separators (.object entries) := by
  intro room index after fits ends
  rw [length_write_object] at fits ⊢
  obtain ⟨room, rfl⟩ := Nat.exists_eq_add_one_of_ne_zero (by omega : room ≠ 0)
  cases entries with
  | nil =>
    rw [write_object_append, readValue]
    simp only [writeEntries, List.nil_append, skipSpace_cons (rfl : isSpace '\x7d' = false)]
    rfl
  | cons entry entries =>
    have fit : (writeEntries separators (entry :: entries)).length < room := by omega
    rw [readValue_object, readEntries_writeEntries plain all [] (index + 1) after distinct fit]
    simp only [List.nil_append]
    congr 3
    omega

end Containers

section Texts

variable {separators : Separators} {value : Json}

theorem length_write_pos (separators : Separators) (whole : value.Whole) :
    0 < (write separators value).length := by
  obtain ⟨c, rest, written, -⟩ := exists_write_eq_cons separators whole
  rw [written]
  exact Nat.succ_pos _

/-- What a value is written as is read back as the value. -/
theorem readsBack_of_lossless (plain : separators.IsPlain) (lossless : value.Lossless) :
    ReadsBack separators value := by
  -- One room is left for the value itself, and what is inside needs no more than its own text.
  have enough {value : Json} (lossless : value.Lossless) {room : Nat}
      (fits : (write separators value).length ≤ room) : ∃ more, room = more + 1 := by
    have positive := length_write_pos separators (whole_of_lossless lossless)
    exact Nat.exists_eq_add_one_of_ne_zero (by omega)
  induction lossless with
  | null =>
    intro room index after fits ends
    obtain ⟨room, rfl⟩ := enough .null fits
    rfl
  | bool value =>
    intro room index after fits ends
    obtain ⟨room, rfl⟩ := enough (.bool value) fits
    cases value <;> rfl
  | @int value small =>
    intro room index after fits ends
    obtain ⟨room, rfl⟩ := enough (.int small) fits
    have short := Nat.not_lt.2 (Numeral.length_toDigits_le small)
    rw [write, readValue_toString, readNumber_toString value ends, if_neg short]
  | float asked value => cases asked
  | text value =>
    intro room index after fits ends
    obtain ⟨room, rfl⟩ := enough (.text value) fits
    rw [write]
    exact readValue_text value
  | array all ih =>
    exact readsBack_array plain fun item member =>
      ⟨whole_of_lossless (all item member), ih item member⟩
  | object distinct all ih =>
    exact readsBack_object plain distinct fun entry member =>
      ⟨whole_of_lossless (all entry member), ih entry member⟩

theorem skipSpace_write (separators : Separators) (whole : value.Whole) :
    skipSpace ⟨value.write separators, 0⟩ = ⟨value.write separators, 0⟩ := by
  obtain ⟨c, rest, written, opens⟩ := exists_write_eq_cons separators whole
  rw [written]
  exact skipSpace_cons opens.notSpace

theorem head?_write_ne (separators : Separators) (whole : value.Whole) :
    (value.write separators).head? ≠ some '\ufeff' := by
  obtain ⟨c, rest, written, opens⟩ := exists_write_eq_cons separators whole
  rw [written]
  intro marked
  exact opens.notMark (Option.some.inj marked)

theorem parse_write (plain : separators.IsPlain) (lossless : value.Lossless) :
    parse (value.write separators) = .ok value := by
  have whole := whole_of_lossless lossless
  have read := readsBack_of_lossless plain lossless (2 * (value.write separators).length + 2) 0 []
    (by omega) nofun
  rw [List.append_nil] at read
  rw [parse, if_neg (head?_write_ne separators whole), skipSpace_write separators whole, read]
  rfl

end Texts

end Json

end GoMetadata
