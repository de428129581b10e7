import GoMetadata.Proofs.Json.Numbers
import Mathlib.Data.List.TakeWhile

/-!
Regular values: their integers have no more digits than are read, and no key of an object comes
twice. Whatever is read from a text is regular.
-/

namespace GoMetadata

section Entries

variable {α : Type} {key : String} {value : α} {entries : List (String × α)}

theorem mem_putEntry {entry : String × α} (member : entry ∈ putEntry key value entries) :
    entry = (key, value) ∨ entry ∈ entries := by
  induction entries with
  | nil => exact .inl (List.mem_singleton.1 member)
  | cons first rest ih =>
    by_cases hit : first.1 = key
    · rw [putEntry, if_pos hit] at member
      rcases List.mem_cons.1 member with same | later
      · exact .inl same
      · exact .inr (List.mem_cons_of_mem _ later)
    · rw [putEntry, if_neg hit] at member
      rcases List.mem_cons.1 member with rfl | later
      · exact .inr List.mem_cons_self
      · rcases ih later with same | earlier
        · exact .inl same
        · exact .inr (List.mem_cons_of_mem _ earlier)

theorem nodup_putEntry (distinct : (entries.map Prod.fst).Nodup) :
    ((putEntry key value entries).map Prod.fst).Nodup := by
  induction entries with
  | nil => exact List.pairwise_singleton _ key
  | cons first rest ih =>
    rw [List.map_cons, List.nodup_cons] at distinct
    by_cases hit : first.1 = key
    · rw [putEntry, if_pos hit, List.map_cons, List.nodup_cons, ← hit]
      exact distinct
    · rw [putEntry, if_neg hit, List.map_cons, List.nodup_cons]
      refine ⟨?_, ih distinct.2⟩
      intro known
      obtain ⟨entry, member, same⟩ := List.mem_map.1 known
      rcases mem_putEntry member with rfl | earlier
      · exact hit same.symm
      · exact distinct.1 (List.mem_map.2 ⟨entry, earlier, same⟩)

theorem putEntry_of_not_mem {entry : String × α} (fresh : entry.1 ∉ entries.map Prod.fst) :
    putEntry entry.1 entry.2 entries = entries ++ [entry] := by
  induction entries with
  | nil => rfl
  | cons other rest ih =>
    rw [List.map_cons, List.mem_cons, not_or] at fresh
    rw [putEntry, if_neg (Ne.symm fresh.1), ih fresh.2, List.cons_append]

theorem not_mem_of_nodup_append {entry : String × α} {before after : List (String × α)}
    (distinct : ((before ++ entry :: after).map Prod.fst).Nodup) :
    entry.1 ∉ before.map Prod.fst := by
  rw [List.map_append, List.nodup_append] at distinct
  intro known
  exact distinct.2.2 entry.1 known entry.1 List.mem_cons_self rfl

end Entries

namespace Json

/-- A value as it can be read. Numbers with a fraction are part of it only where they are asked
for. -/
inductive Regular (fractions : Bool) : Json → Prop where
  | null : Regular fractions null
  | bool (value : Bool) : Regular fractions (bool value)
  | int {value : Int} (small : value.natAbs < 10 ^ Numeral.maxDigits) :
      Regular fractions (int value)
  | float (asked : fractions = true) (value : Binary64) : Regular fractions (float value)
  | text (value : String) : Regular fractions (text value)
  | array {items : List Json} (all : ∀ item ∈ items, Regular fractions item) :
      Regular fractions (array items)
  | object {entries : List (String × Json)} (distinct : (entries.map Prod.fst).Nodup)
      (all : ∀ entry ∈ entries, Regular fractions entry.2) : Regular fractions (object entries)

abbrev Lossless : Json → Prop :=
  Regular false

theorem allFinite_of_lossless {value : Json} (lossless : value.Lossless) :
    value.allFinite = true := by
  induction lossless with
  | null => rfl
  | bool value => rfl
  | int small => rfl
  | float asked value => cases asked
  | text value => rfl
  | @array items all ih =>
    rw [allFinite]
    induction items with
    | nil => rfl
    | cons item items others =>
      rw [allFiniteItems, ih item List.mem_cons_self]
      exact others (fun next member => all next (List.mem_cons_of_mem _ member))
        fun next member => ih next (List.mem_cons_of_mem _ member)
  | @object entries distinct all ih =>
    clear distinct
    rw [allFinite]
    induction entries with
    | nil => rfl
    | cons entry entries others =>
      rw [allFiniteEntries, ih entry List.mem_cons_self]
      exact others (fun next member => all next (List.mem_cons_of_mem _ member))
        fun next member => ih next (List.mem_cons_of_mem _ member)

section Reading

variable {cursor next : Cursor} {value : Json}

theorem natAbs_signed (negative : Bool) (digits : List Char) :
    (Numeral.signed negative digits).natAbs = Numeral.value digits := by
  rw [Numeral.signed]
  cases negative with
  | true => exact (Int.natAbs_neg _).trans (Int.natAbs_natCast _)
  | false => exact Int.natAbs_natCast _

theorem all_isDigit_of_readWhole? {source whole rest : List Char}
    (read : readWhole? source = some (whole, rest)) : ∀ c ∈ whole, c.isDigit = true := by
  unfold readWhole? at read
  split at read
  · cases read
    exact List.forall_mem_singleton.2 rfl
  · split at read
    · cases read
    · rw [spanDigits, List.span_eq_takeWhile_dropWhile] at read
      cases read
      intro c member
      exact List.mem_takeWhile_imp member

theorem regular_of_readNumber (read : readNumber cursor = .ok (value, next)) :
    Regular true value := by
  unfold readNumber at read
  dsimp only at read
  split at read
  · cases read
  next whole afterWhole found =>
    split at read
    · cases read
      exact .float rfl _
    · split at read
      · cases read
      next short =>
        cases read
        refine .int ?_
        rw [natAbs_signed]
        calc
          Numeral.value whole < 10 ^ whole.length :=
            Numeral.value_lt (all_isDigit_of_readWhole? found)
          _ ≤ 10 ^ Numeral.maxDigits :=
            Nat.pow_le_pow_right (by decide) (Nat.le_of_not_lt short)

theorem regular_of_readScalar (read : readScalar cursor = .ok (value, next)) :
    Regular true value := by
  unfold readScalar at read
  split at read
  next name found named =>
    cases read
    have listed := List.mem_of_find?_eq_some named
    simp only [names, List.mem_cons, Prod.mk.injEq, List.not_mem_nil, or_false] at listed
    rcases listed with ⟨-, rfl⟩ | ⟨-, rfl⟩ | ⟨-, rfl⟩ | ⟨-, rfl⟩ | ⟨-, rfl⟩ | ⟨-, rfl⟩
    · exact .null
    · exact .bool true
    · exact .bool false
    all_goals exact .float rfl _
  next => exact regular_of_readNumber read

/-- What is read in some room is regular, if what was read before is. -/
structure ReadsRegular (room : Nat) : Prop where
  values : ∀ {cursor next value}, readValue room cursor = .ok (value, next) → Regular true value
  arrays : ∀ read {cursor next value}, (∀ item ∈ read, Regular true item) →
    readItems room read cursor = .ok (value, next) → Regular true value
  objects : ∀ read {cursor next value}, (read.map Prod.fst).Nodup →
    (∀ entry ∈ read, Regular true entry.2) →
    readEntries room read cursor = .ok (value, next) → Regular true value

variable {room : Nat}

theorem ReadsRegular.values_succ (reads : ReadsRegular room)
    (found : readValue (room + 1) cursor = .ok (value, next)) : Regular true value := by
  rw [readValue] at found
  split at found
  next rest _ =>
    cases text : readText cursor.index [] (cursor.index + 1) rest with
    | error fault =>
      rw [text] at found
      cases found
    | ok read =>
      rw [text] at found
      cases found
      exact .text _
  next =>
    dsimp only at found
    split at found
    · cases found
      exact .object List.nodup_nil nofun
    · exact reads.objects [] List.nodup_nil nofun found
  next =>
    dsimp only at found
    split at found
    · cases found
      exact .array nofun
    · exact reads.arrays [] nofun found
  next => exact regular_of_readScalar found

theorem ReadsRegular.arrays_succ (reads : ReadsRegular room) (read : List Json)
    (regular : ∀ item ∈ read, Regular true item)
    (found : readItems (room + 1) read cursor = .ok (value, next)) : Regular true value := by
  rw [readItems] at found
  cases first : readValue room cursor with
  | error fault =>
    rw [first] at found
    cases found
  | ok result =>
    obtain ⟨item, following⟩ := result
    rw [first] at found
    have known : ∀ other ∈ item :: read, Regular true other :=
      List.forall_mem_cons.2 ⟨reads.values first, regular⟩
    dsimp only [bind, Except.bind] at found
    split at found
    · cases found
      exact .array fun other member => known other (List.mem_reverse.1 member)
    · exact reads.arrays _ known found
    · cases found

theorem ReadsRegular.objects_succ (reads : ReadsRegular room) (read : List (String × Json))
    (distinct : (read.map Prod.fst).Nodup) (regular : ∀ entry ∈ read, Regular true entry.2)
    (found : readEntries (room + 1) read cursor = .ok (value, next)) : Regular true value := by
  rw [readEntries] at found
  split at found
  next rest _ =>
    cases named : readText cursor.index [] (cursor.index + 1) rest with
    | error fault =>
      rw [named] at found
      cases found
    | ok result =>
      obtain ⟨key, behind⟩ := result
      rw [named] at found
      dsimp only [bind, Except.bind] at found
      split at found
      next more _ =>
        cases first : readValue room (skipSpace ⟨more, (skipSpace behind).index + 1⟩) with
        | error fault =>
          rw [first] at found
          cases found
        | ok result =>
          obtain ⟨item, following⟩ := result
          rw [first] at found
          have known : ∀ entry ∈ putEntry key item read, Regular true entry.2 := by
            intro entry member
            rcases mem_putEntry member with rfl | earlier
            · exact reads.values first
            · exact regular entry earlier
          dsimp only at found
          split at found
          · cases found
            exact .object (nodup_putEntry distinct) known
          · exact reads.objects _ (nodup_putEntry distinct) known found
          · cases found
      next => cases found
  next => cases found

theorem readsRegular (room : Nat) : ReadsRegular room := by
  induction room with
  | zero => exact ⟨nofun, nofun, nofun⟩
  | succ room ih =>
    exact ⟨ih.values_succ, fun read => ih.arrays_succ read, fun read => ih.objects_succ read⟩

theorem regular_of_parse {source : List Char} (parsed : parse source = .ok value) :
    Regular true value := by
  unfold parse at parsed
  split at parsed
  · cases parsed
  · split at parsed
    · cases parsed
    next read =>
      dsimp only at parsed
      split at parsed
      · cases parsed
        exact (readsRegular _).values read
      · cases parsed

end Reading

end Json

end GoMetadata
