import GoMetadata.Proofs.Json.RoundTrip

/-!
Integers of more digits than are read. The reader ends in such a way only at a run of digits that
stands in the text; and of the documents that are written with integers of any size, it refuses
exactly those in which one of them is too long.
-/

namespace GoMetadata.Json

/-- A run of so many digits stands in a text, and they are too many for an integer. -/
def HasOverlong (text : List Char) (digits : Nat) : Prop :=
  Numeral.maxDigits < digits ∧
    ∃ run, run <:+: text ∧ run.length = digits ∧ ∀ c ∈ run, c.isDigit = true

/-- An outcome of reading from the start of a text: what is left is an end of the text, and an
integer that is too long stands in it. Nothing is said of texts that are malformed. -/
def Within {α : Type} (text : List Char) : Except Fault (α × Cursor) → Prop
  | .ok (_, next) => next.rest <:+ text
  | .error (.malformed _ _) => True
  | .error (.numeralTooLong digits) => HasOverlong text digits

section Within

variable {α β : Type} {text whole : List Char} {outcome : Except Fault (α × Cursor)}

theorem HasOverlong.mono {digits : Nat} (long : HasOverlong text digits) (part : text <:+ whole) :
    HasOverlong whole digits := by
  obtain ⟨many, run, inside, length, all⟩ := long
  exact ⟨many, run, inside.trans part.isInfix, length, all⟩

theorem Within.mono (within : Within text outcome) (part : text <:+ whole) :
    Within whole outcome := by
  match outcome, within with
  | .ok _, suffix => exact suffix.trans part
  | .error (.malformed _ _), _ => trivial
  | .error (.numeralTooLong _), long => exact HasOverlong.mono long part

theorem Within.map (within : Within text outcome) (f : α → β) :
    Within text (outcome.map fun (value, next) => (f value, next)) := by
  match outcome, within with
  | .ok _, suffix => exact suffix
  | .error (.malformed _ _), _ => trivial
  | .error (.numeralTooLong _), long => exact long

theorem Within.bind {f : α × Cursor → Except Fault (β × Cursor)} (within : Within text outcome)
    (further : ∀ value next, Within next.rest (f (value, next))) :
    Within text (outcome >>= f) := by
  match outcome, within with
  | .ok (value, next), suffix => exact (further value next).mono suffix
  | .error (.malformed _ _), _ => trivial
  | .error (.numeralTooLong _), long => exact long

end Within

section Reading

variable {index : Nat} {source rest : List Char}

theorem rest_skipSpace_suffix (cursor : Cursor) : (skipSpace cursor).rest <:+ cursor.rest :=
  List.drop_suffix _ _

theorem malformed_of_readUnicode {fault : Fault} (refused : readUnicode index rest = .error fault) :
    ∃ complaint place, fault = .malformed complaint place := by
  unfold readUnicode at refused
  repeat' split at refused
  all_goals
    cases refused
    try exact ⟨_, _, rfl⟩

theorem within_readText (start : Nat) (read : List Char) (index : Nat) (rest : List Char) :
    Within rest (readText start read index rest) := by
  fun_induction readText start read index rest with
  | case1 => trivial
  | case2 => exact List.suffix_cons _ _
  | case3 => trivial
  | case4 read index rest fault refused =>
    obtain ⟨complaint, place, rfl⟩ := malformed_of_readUnicode refused
    trivial
  | case5 read index rest c length found ih =>
    exact ih.mono ((List.drop_suffix length rest).trans
      ((List.suffix_cons 'u' rest).trans (List.suffix_cons '\\' _)))
  | case6 => trivial
  | case7 read index c rest _ _ _ ih =>
    exact ih.mono ((List.suffix_cons c rest).trans (List.suffix_cons '\\' _))
  | case8 => trivial
  | case9 read index c rest _ _ _ _ _ ih => exact ih.mono (List.suffix_cons c rest)

theorem spanDigits_append_snd (source : List Char) :
    (spanDigits source).1 ++ (spanDigits source).2 = source := by
  rw [spanDigits, List.span_eq_takeWhile_dropWhile]
  exact List.takeWhile_append_dropWhile

theorem snd_spanDigits_suffix (source : List Char) : (spanDigits source).2 <:+ source :=
  ⟨_, spanDigits_append_snd source⟩

theorem readWhole?_append {whole : List Char} (read : readWhole? source = some (whole, rest)) :
    whole ++ rest = source := by
  unfold readWhole? at read
  split at read
  · cases read
    rfl
  · split at read
    · cases read
    · rw [← spanDigits_append_snd source, Option.some.inj read]

theorem getD_readFraction?_suffix (source : List Char) :
    ((readFraction? source).getD ([], source)).2 <:+ source := by
  unfold readFraction?
  split
  next more =>
    split
    · exact List.suffix_refl _
    · exact (snd_spanDigits_suffix more).trans (List.suffix_cons '.' more)
  · exact List.suffix_refl _

theorem readSign_suffix (source : List Char) : (readSign source).2.2 <:+ source := by
  unfold readSign
  split
  · exact List.suffix_cons _ _
  · exact List.suffix_cons _ _
  · exact List.suffix_refl _

theorem getD_readExponent?_suffix (source : List Char) :
    ((readExponent? source).getD (0, 0, source)).2.2 <:+ source := by
  unfold readExponent?
  split
  · exact List.suffix_refl _
  next mark more =>
    split
    · dsimp only
      split
      · exact List.suffix_refl _
      next digits behind _ spanned =>
        have known := snd_spanDigits_suffix (readSign more).2.2
        rw [spanned] at known
        exact known.trans ((readSign_suffix more).trans (List.suffix_cons mark more))
    · exact List.suffix_refl _

theorem within_readNumber (cursor : Cursor) : Within cursor.rest (readNumber cursor) := by
  unfold readNumber
  dsimp only
  split
  · trivial
  next whole afterWhole found =>
    have unsigned : whole ++ afterWhole <:+ cursor.rest := by
      rw [readWhole?_append found]
      split
      next rest negative =>
        rw [negative]
        exact List.suffix_cons '-' rest
      · exact List.suffix_refl _
    have next : ((readExponent? ((readFraction? afterWhole).getD ([], afterWhole)).2).getD
        (0, 0, ((readFraction? afterWhole).getD ([], afterWhole)).2)).2.2 <:+ cursor.rest :=
      (getD_readExponent?_suffix _).trans ((getD_readFraction?_suffix afterWhole).trans
        ((List.suffix_append whole afterWhole).trans unsigned))
    split
    · exact next
    · split
      next many =>
        have inside := (List.prefix_append whole afterWhole).isInfix.trans unsigned.isInfix
        exact ⟨many, whole, inside, rfl, all_isDigit_of_readWhole? found⟩
      · exact next

theorem within_readScalar (cursor : Cursor) : Within cursor.rest (readScalar cursor) := by
  unfold readScalar
  split
  · exact List.drop_suffix _ _
  · exact within_readNumber cursor

structure StaysWithin (room : Nat) : Prop where
  values : ∀ cursor, Within cursor.rest (readValue room cursor)
  arrays : ∀ read cursor, Within cursor.rest (readItems room read cursor)
  objects : ∀ read cursor, Within cursor.rest (readEntries room read cursor)

variable {room : Nat}

theorem StaysWithin.values_succ (stays : StaysWithin room) (cursor : Cursor) :
    Within cursor.rest (readValue (room + 1) cursor) := by
  rw [readValue]
  split
  next rest text =>
    rw [text]
    exact ((within_readText _ _ _ rest).map Json.text).mono (List.suffix_cons '"' rest)
  next rest object =>
    have inside := (rest_skipSpace_suffix ⟨rest, cursor.index + 1⟩).trans
      (List.suffix_cons '\x7b' rest)
    rw [object]
    dsimp only
    split
    next more closed =>
      rw [closed] at inside
      exact (List.suffix_cons _ more).trans inside
    · exact (stays.objects [] _).mono inside
  next rest array =>
    have inside := (rest_skipSpace_suffix ⟨rest, cursor.index + 1⟩).trans
      (List.suffix_cons '[' rest)
    rw [array]
    dsimp only
    split
    next more closed =>
      rw [closed] at inside
      exact (List.suffix_cons _ more).trans inside
    · exact (stays.arrays [] _).mono inside
  next => exact within_readScalar cursor

theorem StaysWithin.continueItems (stays : StaysWithin room) (read : List Json) (next : Cursor) :
    Within next.rest (continueItems room read next) := by
  unfold Json.continueItems
  split
  next rest closed =>
    rw [closed]
    exact List.suffix_cons ']' rest
  next rest more =>
    rw [more]
    exact (stays.arrays _ _).mono ((rest_skipSpace_suffix _).trans (List.suffix_cons ',' rest))
  · trivial

theorem StaysWithin.continueEntries (stays : StaysWithin room) (read : List (String × Json))
    (next : Cursor) : Within next.rest (continueEntries room read next) := by
  unfold Json.continueEntries
  split
  next rest closed =>
    rw [closed]
    exact List.suffix_cons '\x7d' rest
  next rest more =>
    rw [more]
    exact (stays.objects _ _).mono ((rest_skipSpace_suffix _).trans (List.suffix_cons ',' rest))
  · trivial

theorem StaysWithin.arrays_succ (stays : StaysWithin room) (read : List Json) (cursor : Cursor) :
    Within cursor.rest (readItems (room + 1) read cursor) := by
  rw [readItems_succ]
  refine (stays.values cursor).bind ?_
  intro item next
  exact (stays.continueItems _ _).mono (rest_skipSpace_suffix next)

theorem StaysWithin.objects_succ (stays : StaysWithin room) (read : List (String × Json))
    (cursor : Cursor) : Within cursor.rest (readEntries (room + 1) read cursor) := by
  obtain ⟨text, index⟩ := cursor
  match text with
  | [] => trivial
  | c :: rest =>
    by_cases quoted : c = '"'
    · rw [quoted, readEntries_succ]
      refine ((within_readText _ _ _ rest).mono (List.suffix_cons '"' rest)).bind ?_
      intro key next
      refine Within.mono ?_ (rest_skipSpace_suffix next)
      dsimp only
      split
      next more colon =>
        have behind := (rest_skipSpace_suffix ⟨more, (skipSpace next).index + 1⟩).trans
          (List.suffix_cons ':' more)
        rw [colon]
        refine ((stays.values _).mono behind).bind ?_
        intro value next
        exact (stays.continueEntries _ _).mono (rest_skipSpace_suffix next)
      · trivial
    · rw [readEntries]
      split
      next same => exact absurd (List.cons.inj same).1 quoted
      · trivial

theorem staysWithin (room : Nat) : StaysWithin room := by
  induction room with
  | zero => exact ⟨fun _ => trivial, fun _ _ => trivial, fun _ _ => trivial⟩
  | succ room ih => exact ⟨ih.values_succ, ih.arrays_succ, ih.objects_succ⟩

theorem hasOverlong_of_parse {digits : Nat}
    (refused : parse source = .error (.numeralTooLong digits)) : HasOverlong source digits := by
  unfold parse at refused
  split at refused
  · cases refused
  · have within := (staysWithin (2 * source.length + 2)).values (skipSpace ⟨source, 0⟩)
    split at refused
    next fault failed =>
      cases refused
      rw [failed] at within
      exact HasOverlong.mono within (rest_skipSpace_suffix ⟨source, 0⟩)
    next =>
      dsimp only at refused
      split at refused <;> cases refused

end Reading

section Written

variable {separators : Separators} {digits : Nat} {item value : Json}

/-- In any room that is as large as its text, reading a value ends at an integer that is too
long. -/
def Breaks (separators : Separators) (digits : Nat) (value : Json) : Prop :=
  ∀ room index after, (write separators value).length ≤ room → Ends after →
    readValue room ⟨write separators value ++ after, index⟩ = .error (.numeralTooLong digits)

def BreaksItems (separators : Separators) (digits : Nat) (items : List Json) : Prop :=
  ∀ room read index after, (writeItems separators items).length < room →
    readItems room read ⟨writeItems separators items ++ ']' :: after, index⟩ =
      .error (.numeralTooLong digits)

def BreaksEntries (separators : Separators) (digits : Nat) (entries : List (String × Json)) :
    Prop :=
  ∀ room read index after, (writeEntries separators entries).length < room →
    readEntries room read ⟨writeEntries separators entries ++ '\x7d' :: after, index⟩ =
      .error (.numeralTooLong digits)

theorem breaks_int {value : Int} (large : 10 ^ Numeral.maxDigits ≤ value.natAbs) :
    Breaks separators (Nat.toDigits 10 value.natAbs).length (.int value) := by
  intro room index after fits ends
  have positive := length_write_pos separators (.int value)
  obtain ⟨room, rfl⟩ := Nat.exists_eq_add_one_of_ne_zero (by omega : room ≠ 0)
  have long : Numeral.maxDigits < (Nat.toDigits 10 value.natAbs).length := by
    rw [← Nat.not_le, Nat.length_toDigits_le_iff (by decide) (by decide)]
    exact Nat.not_lt.2 large
  rw [write, readValue_toString, readNumber_toString value ends, if_pos long]

theorem Breaks.items (breaks : Breaks separators digits item) (plain : separators.IsPlain)
    (items : List Json) : BreaksItems separators digits (item :: items) := by
  intro room read index after fits
  obtain ⟨room, rfl⟩ := Nat.exists_eq_add_one_of_ne_zero (by omega : room ≠ 0)
  cases items with
  | nil =>
    rw [writeItems] at fits ⊢
    have ends : Ends (']' :: after) := ends_cons (.inr (.inl rfl)) after
    rw [readItems_succ, breaks room index _ (by omega) ends]
    rfl
  | cons next items =>
    obtain ⟨blanks, mark, -⟩ := plain.item
    rw [writeItems_cons_cons, List.append_assoc, List.length_append] at fits
    rw [writeItems_cons_cons, mark, List.append_assoc, List.append_assoc, List.cons_append,
      readItems_succ, breaks room index _ (by omega) (ends_cons (.inl rfl) _)]
    rfl

theorem Breaks.entry {key : String} (breaks : Breaks separators digits value)
    (plain : separators.IsPlain) (whole : value.Whole) (read : List (String × Json))
    {room index : Nat} {after : List Char}
    (fits : (writeEntry separators (key, value)).length ≤ room) (ends : Ends after) :
    readEntries (room + 1) read ⟨writeEntry separators (key, value) ++ after, index⟩ =
      .error (.numeralTooLong digits) := by
  have large : (write separators value).length ≤ room := by
    rw [writeEntry, List.length_append] at fits
    omega
  rw [readEntries_writeEntry index plain read whole, breaks room _ after large ends]
  rfl

theorem Breaks.entries {entry : String × Json} (breaks : Breaks separators digits entry.2)
    (plain : separators.IsPlain) (whole : entry.2.Whole) (entries : List (String × Json)) :
    BreaksEntries separators digits (entry :: entries) := by
  intro room read index after fits
  obtain ⟨room, rfl⟩ := Nat.exists_eq_add_one_of_ne_zero (by omega : room ≠ 0)
  cases entries with
  | nil =>
    rw [writeEntries] at fits ⊢
    have enough : (writeEntry separators entry).length ≤ room := by omega
    exact breaks.entry plain whole read enough (ends_cons (.inr (.inr rfl)) after)
  | cons next entries =>
    obtain ⟨blanks, mark, -⟩ := plain.item
    rw [writeEntries_cons_cons, List.append_assoc, List.length_append] at fits
    rw [writeEntries_cons_cons, mark, List.append_assoc, List.append_assoc]
    have enough : (writeEntry separators entry).length ≤ room := by omega
    exact breaks.entry plain whole read enough (ends_cons (.inl rfl) _)

theorem BreaksItems.cons {next : Json} {items : List Json}
    (breaks : BreaksItems separators digits (next :: items)) (plain : separators.IsPlain)
    (back : ReadsBack separators item) (whole : next.Whole) :
    BreaksItems separators digits (item :: next :: items) := by
  intro room read index after fits
  have positive := length_mark_pos plain.item
  rw [writeItems_cons_cons, List.length_append, List.length_append] at fits
  obtain ⟨room, rfl⟩ := Nat.exists_eq_add_one_of_ne_zero (by omega : room ≠ 0)
  rw [back.items plain whole items read index after (by omega)]
  exact breaks room _ _ after (by omega)

theorem BreaksEntries.cons {entry next : String × Json} {entries : List (String × Json)}
    (breaks : BreaksEntries separators digits (next :: entries)) (plain : separators.IsPlain)
    (back : ReadsBack separators entry.2) (whole : entry.2.Whole) :
    BreaksEntries separators digits (entry :: next :: entries) := by
  intro room read index after fits
  have positive := length_mark_pos plain.item
  rw [writeEntries_cons_cons, List.length_append, List.length_append] at fits
  obtain ⟨room, rfl⟩ := Nat.exists_eq_add_one_of_ne_zero (by omega : room ≠ 0)
  rw [back.entries plain whole next entries read index after (by omega)]
  exact breaks room _ _ after (by omega)

theorem BreaksItems.array {items : List Json}
    (breaks : BreaksItems separators digits (item :: items)) (whole : item.Whole) :
    Breaks separators digits (.array (item :: items)) := by
  intro room index after fits ends
  rw [length_write_array] at fits
  obtain ⟨room, rfl⟩ := Nat.exists_eq_add_one_of_ne_zero (by omega : room ≠ 0)
  rw [readValue_array whole]
  exact breaks room [] _ after (by omega)

theorem BreaksEntries.object {entry : String × Json} {entries : List (String × Json)}
    (breaks : BreaksEntries separators digits (entry :: entries)) :
    Breaks separators digits (.object (entry :: entries)) := by
  intro room index after fits ends
  rw [length_write_object] at fits
  obtain ⟨room, rfl⟩ := Nat.exists_eq_add_one_of_ne_zero (by omega : room ≠ 0)
  rw [readValue_object]
  exact breaks room [] _ after (by omega)

theorem Breaks.parse (breaks : Breaks separators digits value) (whole : value.Whole) :
    parse (value.write separators) = .error (.numeralTooLong digits) := by
  have ended := breaks (2 * (value.write separators).length + 2) 0 [] (by omega) nofun
  rw [List.append_nil] at ended
  rw [Json.parse, if_neg (head?_write_ne separators whole)]
  simp only [skipSpace_write separators whole, ended]

/-- A value that its text says in full, or in which reading ends. -/
def Decided (separators : Separators) (value : Json) : Prop :=
  value.Lossless ∨ ∃ digits, Breaks separators digits value

theorem lossless_or_breaksItems (plain : separators.IsPlain) {items : List Json}
    (all : ∀ value ∈ items, value.Whole ∧ Decided separators value) :
    (∀ value ∈ items, value.Lossless) ∨
      ∃ item rest digits,
        items = item :: rest ∧ item.Whole ∧ BreaksItems separators digits items := by
  induction items with
  | nil => exact .inl nofun
  | cons item items ih =>
    obtain ⟨⟨whole, decided⟩, others⟩ := List.forall_mem_cons.1 all
    obtain lossless | ⟨digits, breaks⟩ := decided
    · obtain rest | ⟨next, rest, digits, rfl, later, breaks⟩ := ih others
      · exact .inl (List.forall_mem_cons.2 ⟨lossless, rest⟩)
      · have back := readsBack_of_lossless plain lossless
        exact .inr ⟨item, _, digits, rfl, whole, breaks.cons plain back later⟩
    · exact .inr ⟨item, items, digits, rfl, whole, breaks.items plain items⟩

theorem lossless_or_breaksEntries (plain : separators.IsPlain) {entries : List (String × Json)}
    (all : ∀ entry ∈ entries, entry.2.Whole ∧ Decided separators entry.2) :
    (∀ entry ∈ entries, entry.2.Lossless) ∨
      ∃ entry rest digits, entries = entry :: rest ∧ BreaksEntries separators digits entries := by
  induction entries with
  | nil => exact .inl nofun
  | cons entry entries ih =>
    obtain ⟨⟨whole, decided⟩, others⟩ := List.forall_mem_cons.1 all
    obtain lossless | ⟨digits, breaks⟩ := decided
    · obtain rest | ⟨next, rest, digits, rfl, breaks⟩ := ih others
      · exact .inl (List.forall_mem_cons.2 ⟨lossless, rest⟩)
      · have back := readsBack_of_lossless plain lossless
        exact .inr ⟨entry, _, digits, rfl, breaks.cons plain back whole⟩
    · exact .inr ⟨entry, entries, digits, rfl, breaks.entries plain whole entries⟩

theorem decided_of_whole (plain : separators.IsPlain) (whole : value.Whole) :
    Decided separators value := by
  induction whole with
  | null => exact .inl .null
  | bool value => exact .inl (.bool value)
  | int value =>
    by_cases small : value.natAbs < 10 ^ Numeral.maxDigits
    · exact .inl (.int small)
    · exact .inr ⟨_, breaks_int (Nat.not_lt.1 small)⟩
  | text value => exact .inl (.text value)
  | array all ih =>
    obtain lossless | ⟨item, rest, digits, rfl, whole, breaks⟩ :=
      lossless_or_breaksItems plain fun item member => ⟨all item member, ih item member⟩
    · exact .inl (.array lossless)
    · exact .inr ⟨digits, breaks.array whole⟩
  | object distinct all ih =>
    obtain lossless | ⟨entry, rest, digits, rfl, breaks⟩ :=
      lossless_or_breaksEntries plain fun entry member => ⟨all entry member, ih entry member⟩
    · exact .inl (.object distinct lossless)
    · exact .inr ⟨digits, breaks.object⟩

/-- Of the documents that are written with integers of any size, those are read in which no integer
is too long. -/
theorem lossless_or_parse_write (plain : separators.IsPlain) (whole : value.Whole) :
    value.Lossless ∨
      ∃ digits, Json.parse (value.write separators) = .error (.numeralTooLong digits) := by
  obtain lossless | ⟨digits, breaks⟩ := decided_of_whole plain whole
  · exact .inl lossless
  · exact .inr ⟨digits, breaks.parse whole⟩

theorem not_lossless_pow {zeros : Nat} (many : Numeral.maxDigits ≤ zeros) :
    ¬Lossless (.int (10 ^ zeros : Nat)) := by
  intro lossless
  cases lossless with
  | int small =>
    rw [Int.natAbs_natCast] at small
    exact Nat.not_lt.2 (Nat.pow_le_pow_right (by decide) many) small

theorem parse_write_pow (plain : separators.IsPlain) (key : String) {zeros : Nat}
    (many : Numeral.maxDigits ≤ zeros) :
    Json.parse (write separators (.object [(key, .int (10 ^ zeros : Nat))])) =
      .error (.numeralTooLong (zeros + 1)) := by
  have large : 10 ^ Numeral.maxDigits ≤ ((10 ^ zeros : Nat) : Int).natAbs :=
    Nat.pow_le_pow_right (by decide) many
  have first : BreaksEntries separators _ [(key, .int (10 ^ zeros : Nat))] :=
    (breaks_int large).entries plain (.int _) []
  have whole : Whole (.object [(key, .int (10 ^ zeros : Nat))]) :=
    .object (List.pairwise_singleton _ _) (List.forall_mem_singleton.2 (.int _))
  have long := first.object.parse whole
  rwa [Int.natAbs_natCast, Numeral.toDigits_pow, List.length_cons, List.length_replicate] at long

end Written

end GoMetadata.Json
