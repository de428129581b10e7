import GoMetadata.Proofs.Wire.Cursor
import Mathlib.Algebra.BigOperators.Ring.Finset

/-!
Varints digit by digit. The first byte below `0x80` ends a varint if it is among the first ten; the
value is the sum of the low seven bits of each byte up to there, weighed by powers of 128. Of all
spellings of a number the one that is written is the shortest, and no other is as short. Ten bytes
hold seventy bits, so a value can be wider than 64.
-/

namespace GoMetadata.Wire.Varint

def EndsAt (data : Bytes) (place : Nat) : Prop :=
  ∃ byte, data[place]? = some byte ∧ byte < 0x80

def GoesOnAt (data : Bytes) (place : Nat) : Prop :=
  ∃ byte, data[place]? = some byte ∧ 0x80 ≤ byte

def digitAt (data : Bytes) (place : Nat) : Nat :=
  (data.getD place 0 &&& 0x7F).toNat

theorem not_lt_iff_le {byte : UInt8} : ¬byte < 0x80 ↔ 0x80 ≤ byte :=
  UInt8.not_lt

theorem toNat_and_low (byte : UInt8) : (byte &&& 0x7F).toNat = byte.toNat % 128 := by
  rw [UInt8.toNat_and]
  exact Nat.and_two_pow_sub_one_eq_mod byte.toNat 7

theorem toNat_and_low_lt (byte : UInt8) : (byte &&& 0x7F).toNat < 128 := by
  rw [toNat_and_low]
  exact Nat.mod_lt _ (by decide)

theorem toNat_and_low_of_lt {byte : UInt8} (small : byte < 0x80) :
    (byte &&& 0x7F).toNat = byte.toNat := by
  rw [toNat_and_low]
  exact Nat.mod_eq_of_lt (UInt8.lt_iff_toNat_lt.1 small)

theorem toNat_and_low_of_not_lt {byte : UInt8} (large : ¬byte < 0x80) :
    (byte &&& 0x7F).toNat = byte.toNat - 0x80 := by
  have low := toNat_and_low byte
  have bound : 128 ≤ byte.toNat := UInt8.le_iff_toNat_le.1 (not_lt_iff_le.1 large)
  have size := byte.toNat_lt
  omega

section Digits

variable {bytes : Bytes} {room : Nat}

theorem goesOnAt_cons_zero {byte : UInt8} : GoesOnAt (byte :: bytes) 0 ↔ 0x80 ≤ byte := by
  simp [GoesOnAt]

theorem endsAt_cons_zero {byte : UInt8} : EndsAt (byte :: bytes) 0 ↔ byte < 0x80 := by
  simp [EndsAt]

theorem GoesOnAt.not_endsAt {place : Nat} (goesOn : GoesOnAt bytes place) :
    ¬EndsAt bytes place := by
  obtain ⟨byte, there, large⟩ := goesOn
  rintro ⟨other, same, small⟩
  cases there.symm.trans same
  exact not_lt_iff_le.2 large small

theorem GoesOnAt.lt_length {place : Nat} (goesOn : GoesOnAt bytes place) :
    place < bytes.length := by
  obtain ⟨byte, there, -⟩ := goesOn
  exact (List.getElem?_eq_some_iff.1 there).1

theorem sum_digits_cons (byte : UInt8) (rest : Bytes) (count : Nat) :
    ∑ place ∈ Finset.range (count + 1), digitAt (byte :: rest) place * 128 ^ place =
      digitAt (byte :: rest) 0 +
        0x80 * ∑ place ∈ Finset.range count, digitAt rest place * 128 ^ place := by
  rw [Finset.sum_range_succ', Finset.mul_sum, pow_zero, Nat.mul_one, Nat.add_comm]
  refine congrArg _ (Finset.sum_congr rfl fun place _ => ?_)
  change digitAt rest place * 128 ^ (place + 1) = _
  rw [pow_succ]
  ac_rfl

theorem decodeWithin_of_endsAt {last : Nat} (within : last < room) (ends : EndsAt bytes last)
    (before : ∀ place < last, GoesOnAt bytes place) :
    decodeWithin room bytes =
      .ok (∑ place ∈ Finset.range (last + 1), digitAt bytes place * 128 ^ place,
        bytes.drop (last + 1)) := by
  induction last generalizing room bytes with
  | zero =>
    obtain ⟨byte, there, small⟩ := ends
    obtain ⟨room, rfl⟩ := Nat.exists_eq_succ_of_ne_zero (Nat.ne_of_gt within)
    cases bytes with
    | nil => cases there
    | cons head rest =>
      cases there
      have digit : digitAt (byte :: rest) 0 = byte.toNat := toNat_and_low_of_lt small
      simp only [decodeWithin, if_pos small, Finset.sum_range_one, digit, pow_zero, Nat.mul_one,
        Nat.zero_add, List.drop_succ_cons, List.drop_zero]
  | succ last ih =>
    obtain ⟨room, rfl⟩ := Nat.exists_eq_succ_of_ne_zero (Nat.ne_of_gt (Nat.zero_lt_of_lt within))
    cases bytes with
    | nil =>
      obtain ⟨byte, there, -⟩ := ends
      cases there
    | cons byte rest =>
      have large : ¬byte < 0x80 :=
        not_lt_iff_le.2 (goesOnAt_cons_zero.1 (before 0 (Nat.zero_lt_succ last)))
      have deeper := ih (Nat.lt_of_succ_lt_succ within) ends
        fun place less => before (place + 1) (Nat.succ_lt_succ less)
      have digit : digitAt (byte :: rest) 0 = byte.toNat - 0x80 := toNat_and_low_of_not_lt large
      rw [decodeWithin, if_neg large, deeper, sum_digits_cons, digit]
      rfl

theorem decodeWithin_of_goesOn (goesOn : ∀ place < room, GoesOnAt bytes place) :
    decodeWithin room bytes = .error .varintTooLarge := by
  induction room generalizing bytes with
  | zero => rfl
  | succ room ih =>
    cases bytes with
    | nil => exact absurd (goesOn 0 (Nat.zero_lt_succ room)).lt_length (Nat.not_lt_zero 0)
    | cons byte rest =>
      have large := goesOnAt_cons_zero.1 (goesOn 0 (Nat.zero_lt_succ room))
      have deeper := ih fun place less => goesOn (place + 1) (Nat.succ_lt_succ less)
      rw [decodeWithin, if_neg (not_lt_iff_le.2 large), deeper]
      rfl

theorem decodeWithin_of_short (short : bytes.length < room)
    (goesOn : ∀ place < bytes.length, GoesOnAt bytes place) :
    decodeWithin room bytes = .error .truncatedVarint := by
  induction bytes generalizing room with
  | nil =>
    obtain ⟨room, rfl⟩ := Nat.exists_eq_succ_of_ne_zero (Nat.ne_of_gt short)
    rfl
  | cons byte rest ih =>
    obtain ⟨room, rfl⟩ := Nat.exists_eq_succ_of_ne_zero (Nat.ne_of_gt (Nat.zero_lt_of_lt short))
    have large := goesOnAt_cons_zero.1 (goesOn 0 (Nat.zero_lt_succ rest.length))
    have deeper := ih (Nat.lt_of_succ_lt_succ short)
      fun place less => goesOn (place + 1) (Nat.succ_lt_succ less)
    rw [decodeWithin, if_neg (not_lt_iff_le.2 large), deeper]
    rfl

theorem ends_or_goesOn_or_short (room : Nat) (bytes : Bytes) :
    (∃ last < room, EndsAt bytes last ∧ ∀ place < last, GoesOnAt bytes place) ∨
      (∀ place < room, GoesOnAt bytes place) ∨
      (bytes.length < room ∧ ∀ place < bytes.length, GoesOnAt bytes place) := by
  induction room generalizing bytes with
  | zero => exact .inr (.inl fun _ less => absurd less (Nat.not_lt_zero _))
  | succ room ih =>
    cases bytes with
    | nil =>
      exact .inr (.inr ⟨Nat.zero_lt_succ room, fun _ less => absurd less (Nat.not_lt_zero _)⟩)
    | cons byte rest =>
      by_cases small : byte < 0x80
      · refine .inl ⟨0, Nat.zero_lt_succ room, endsAt_cons_zero.2 small, ?_⟩
        exact fun _ less => absurd less (Nat.not_lt_zero _)
      have head : GoesOnAt (byte :: rest) 0 := goesOnAt_cons_zero.2 (not_lt_iff_le.1 small)
      -- What holds of the places behind the head holds of all places, one further on.
      have shift : ∀ {bound : Nat}, (∀ place < bound, GoesOnAt rest place) →
          ∀ place < bound + 1, GoesOnAt (byte :: rest) place := by
        intro bound goesOn place less
        cases place with
        | zero => exact head
        | succ place => exact goesOn place (Nat.lt_of_succ_lt_succ less)
      rcases ih rest with ⟨last, within, ends, before⟩ | goesOn | ⟨short, goesOn⟩
      · exact .inl ⟨last + 1, Nat.succ_lt_succ within, ends, shift before⟩
      · exact .inr (.inl (shift goesOn))
      · exact .inr (.inr ⟨Nat.succ_lt_succ short, shift goesOn⟩)

end Digits

section Shortest

variable {digits : Bytes} {value : Nat}

theorem encode_of_lt (small : value < 0x80) : encode value = [UInt8.ofNat value] := by
  rw [encode, if_pos small]

theorem encode_of_not_lt (large : ¬value < 0x80) :
    encode value = UInt8.ofNat (0x80 + value % 0x80) :: encode (value / 0x80) := by
  rw [encode, if_neg large]

theorem encode_digit {byte : UInt8} (small : byte < 0x80) : encode byte.toNat = [byte] := by
  rw [encode_of_lt (UInt8.lt_iff_toNat_lt.1 small), UInt8.ofNat_toNat]

theorem Spells.length_encode_le (spells : Spells digits value) :
    (encode value).length ≤ digits.length := by
  induction spells with
  | last small =>
    rw [encode_digit small]
  | @more byte rest high large _ ih =>
    have bound := byte.toNat_lt
    by_cases small : byte.toNat - 0x80 + 0x80 * high < 0x80
    · rw [encode_of_lt small, List.length_singleton, List.length_cons]
      exact Nat.le_add_left 1 _
    · have quotient : (byte.toNat - 0x80 + 0x80 * high) / 0x80 = high := by omega
      rw [encode_of_not_lt small, quotient, List.length_cons, List.length_cons]
      exact Nat.succ_le_succ ih

theorem Spells.eq_encode (spells : Spells digits value)
    (short : digits.length ≤ (encode value).length) : digits = encode value := by
  induction spells with
  | last small => exact (encode_digit small).symm
  | @more byte rest high large inner ih =>
    have bound := byte.toNat_lt
    have least : 0x80 ≤ byte.toNat := UInt8.le_iff_toNat_le.1 (not_lt_iff_le.1 large)
    by_cases small : byte.toNat - 0x80 + 0x80 * high < 0x80
    · have filled := List.length_pos_iff.2 inner.ne_nil
      rw [encode_of_lt small, List.length_singleton, List.length_cons] at short
      omega
    · have quotient : (byte.toNat - 0x80 + 0x80 * high) / 0x80 = high := by omega
      have digit : 0x80 + (byte.toNat - 0x80 + 0x80 * high) % 0x80 = byte.toNat := by omega
      rw [encode_of_not_lt small, quotient, List.length_cons, List.length_cons] at short
      rw [encode_of_not_lt small, quotient, digit, UInt8.ofNat_toNat,
        ← ih (Nat.le_of_succ_le_succ short)]

end Shortest

section Offsets

variable {data : Bytes} {offset : Nat}

theorem endsAt_drop {place : Nat} :
    EndsAt (data.drop offset) place ↔ EndsAt data (offset + place) := by
  rw [EndsAt, EndsAt, List.getElem?_drop]

theorem goesOnAt_drop {place : Nat} :
    GoesOnAt (data.drop offset) place ↔ GoesOnAt data (offset + place) := by
  rw [GoesOnAt, GoesOnAt, List.getElem?_drop]

theorem digitAt_drop {place : Nat} :
    digitAt (data.drop offset) place = digitAt data (offset + place) := by
  simp only [digitAt, List.getD_eq_getElem?_getD, List.getElem?_drop]

theorem goesOnAt_of_before {first last : Nat} (ends : EndsAt data last) (before : first < last)
    (not_ends : ¬EndsAt data first) : GoesOnAt data first := by
  obtain ⟨byte, there, -⟩ := ends
  have inside : last < data.length := (List.getElem?_eq_some_iff.1 there).1
  have known : first < data.length := Nat.lt_trans before inside
  refine ⟨data[first], List.getElem?_eq_getElem known, not_lt_iff_le.1 fun small => ?_⟩
  exact not_ends ⟨data[first], List.getElem?_eq_getElem known, small⟩

theorem readAt_decode_of_endsAt {last : Nat} (within : last < maxLength)
    (ends : EndsAt data (offset + last))
    (before : ∀ place < last, GoesOnAt data (offset + place)) :
    readAt decode data offset =
      .ok (∑ place ∈ Finset.range (last + 1), digitAt data (offset + place) * 128 ^ place,
        offset + last + 1) := by
  have read := decodeWithin_of_endsAt within (endsAt_drop.2 ends)
    fun place less => goesOnAt_drop.2 (before place less)
  simp only [digitAt_drop, List.drop_drop] at read
  obtain ⟨byte, there, -⟩ := ends
  have inside : offset + last < data.length := (List.getElem?_eq_some_iff.1 there).1
  exact readAt_of_drop inside read

/-- A varint is read up to the first byte that ends one, unless there is none among the first ten;
which of the two faults is found then depends on whether ten bytes are there. -/
theorem readAt_decode_cases (data : Bytes) (offset : Nat) :
    (∃ last < maxLength, EndsAt data (offset + last) ∧
      ∃ value, readAt decode data offset = .ok (value, offset + last + 1)) ∨
    ((∀ place < maxLength, GoesOnAt data (offset + place)) ∧
      readAt decode data offset = .error .varintTooLarge) ∨
    ((¬∃ place < maxLength, EndsAt data (offset + place)) ∧
      (¬∀ place < maxLength, GoesOnAt data (offset + place)) ∧
      readAt decode data offset = .error .truncatedVarint) := by
  rcases ends_or_goesOn_or_short maxLength (data.drop offset) with
    ⟨last, within, ends, before⟩ | goesOn | ⟨short, goesOn⟩
  · rw [endsAt_drop] at ends
    have read := readAt_decode_of_endsAt within ends
      fun place less => goesOnAt_drop.1 (before place less)
    exact .inl ⟨last, within, ends, _, read⟩
  · refine .inr (.inl ⟨fun place less => goesOnAt_drop.1 (goesOn place less), ?_⟩)
    exact readAt_eq_error_iff.2 (decodeWithin_of_goesOn goesOn)
  · refine .inr (.inr ⟨?_, fun all => ?_, ?_⟩)
    · rintro ⟨place, -, ends⟩
      rw [← endsAt_drop] at ends
      obtain ⟨byte, there, -⟩ := id ends
      exact (goesOn place (List.getElem?_eq_some_iff.1 there).1).not_endsAt ends
    · have beyond := (goesOnAt_drop.2 (all _ short)).lt_length
      exact Nat.lt_irrefl _ beyond
    · exact readAt_eq_error_iff.2 (decodeWithin_of_short short goesOn)

theorem readAt_decode_succeeds_iff :
    (∃ value next, readAt decode data offset = .ok (value, next)) ↔
      ∃ place < maxLength, EndsAt data (offset + place) := by
  rcases readAt_decode_cases data offset with
    ⟨last, within, ends, value, read⟩ | ⟨goesOn, read⟩ | ⟨never, -, read⟩
  · exact ⟨fun _ => ⟨last, within, ends⟩, fun _ => ⟨value, _, read⟩⟩
  · rw [read]
    exact ⟨nofun, fun ⟨place, less, ends⟩ => absurd ends (goesOn place less).not_endsAt⟩
  · rw [read]
    exact ⟨nofun, fun found => absurd found never⟩

theorem readAt_decode_tooLarge_iff :
    readAt decode data offset = .error .varintTooLarge ↔
      ∀ place < maxLength, GoesOnAt data (offset + place) := by
  rcases readAt_decode_cases data offset with
    ⟨last, within, ends, value, read⟩ | ⟨goesOn, read⟩ | ⟨-, notAll, read⟩
  · rw [read]
    exact ⟨nofun, fun all => absurd ends (all last within).not_endsAt⟩
  · exact ⟨fun _ => goesOn, fun _ => read⟩
  · rw [read]
    exact ⟨nofun, fun all => absurd all notAll⟩

theorem readAt_decode_truncated_iff :
    readAt decode data offset = .error .truncatedVarint ↔
      (¬∃ place < maxLength, EndsAt data (offset + place)) ∧
        ¬∀ place < maxLength, GoesOnAt data (offset + place) := by
  rw [← readAt_decode_succeeds_iff, ← readAt_decode_tooLarge_iff]
  rcases readAt_decode_cases data offset with
    ⟨last, -, -, value, read⟩ | ⟨-, read⟩ | ⟨-, -, read⟩
  · rw [read]
    exact ⟨nofun, fun ⟨never, _⟩ => absurd ⟨value, _, rfl⟩ never⟩
  · rw [read]
    exact ⟨nofun, fun ⟨_, notLarge⟩ => absurd rfl notLarge⟩
  · rw [read]
    exact ⟨fun _ => ⟨nofun, nofun⟩, fun _ => rfl⟩

theorem exists_message_iff {text : String} {fault : Fault} (same : fault.message = text)
    (told : ∀ other ∈ [Fault.truncatedVarint, .varintTooLarge], other.message = text → other = fault) :
    (∃ found, readAt decode data offset = .error found ∧ found.message = text) ↔
      readAt decode data offset = .error fault := by
  constructor
  · rintro ⟨found, read, message⟩
    have known : found ∈ [Fault.truncatedVarint, .varintTooLarge] := by
      rcases readAt_decode_cases data offset with
        ⟨last, -, -, value, other⟩ | ⟨-, other⟩ | ⟨-, -, other⟩
      · rw [read] at other
        cases other
      · rw [read] at other
        cases other
        decide
      · rw [read] at other
        cases other
        decide
    rw [read, told found known message]
  · exact fun read => ⟨fault, read, same⟩

theorem readAt_decode_encode {value : Nat} (small : value < 2 ^ 70) (before after : Bytes) :
    readAt decode (before ++ encode value ++ after) before.length =
      .ok (value, before.length + (encode value).length) := by
  have inside : before.length + (encode value).length ≤
      (before ++ encode value ++ after).length := by
    simp only [List.length_append]
    omega
  apply readAt_of_drop inside
  rw [List.append_assoc, List.drop_left, ← List.drop_drop, List.drop_left, List.drop_left]
  exact (isVarint_encode small).decode_append after

theorem encode_least {bytes : Bytes} {value next : Nat}
    (read : readAt decode bytes 0 = .ok (value, next)) :
    (encode value).length ≤ bytes.length ∧
      (bytes.length ≤ (encode value).length → bytes = encode value) := by
  obtain ⟨inside, head⟩ := takes_decode.readAt_eq_ok_iff.1 read
  obtain ⟨digits, split, spells, -⟩ := decode_eq_ok_iff.1 head
  rw [List.drop_zero] at split
  have least := spells.length_encode_le
  have lengths := congrArg List.length split
  rw [List.length_append] at lengths
  constructor
  · omega
  · intro short
    have nothing : bytes.drop next = [] := List.eq_nil_of_length_eq_zero (by omega)
    rw [split, nothing, List.append_nil]
    exact spells.eq_encode (by omega)

/-- What is written is read back at any offset, and of all bytes that a number is read from none are
fewer. Bytes of any kind are read as the sum of their digits up to the first byte below `0x80`; where
there is none among ten, the varint is too large, and where fewer are there, it is cut off. -/
theorem readAt_encode_and_digits :
    (∀ value < 2 ^ 70,
      (∀ before after, readAt decode (before ++ encode value ++ after) before.length =
        .ok (value, before.length + (encode value).length)) ∧
      ∀ bytes next, readAt decode bytes 0 = .ok (value, next) →
        (encode value).length ≤ bytes.length ∧
          (bytes.length ≤ (encode value).length → bytes = encode value)) ∧
    ∀ data offset,
      ((∃ value next, readAt decode data offset = .ok (value, next)) ↔
        ∃ place < 10, EndsAt data (offset + place)) ∧
      (∀ last < 10, EndsAt data (offset + last) →
        (∀ place < last, ¬EndsAt data (offset + place)) →
        readAt decode data offset =
          .ok (∑ place ∈ Finset.range (last + 1), digitAt data (offset + place) * 128 ^ place,
            offset + last + 1)) ∧
      ((∃ fault, readAt decode data offset = .error fault ∧
          fault.message = "varint too large") ↔
        ∀ place < 10, GoesOnAt data (offset + place)) ∧
      ((∃ fault, readAt decode data offset = .error fault ∧
          fault.message = "truncated varint") ↔
        (¬∃ place < 10, EndsAt data (offset + place)) ∧
          ¬∀ place < 10, GoesOnAt data (offset + place)) := by
  constructor
  · exact fun value small => ⟨readAt_decode_encode small, fun _ _ => encode_least⟩
  · intro data offset
    refine ⟨readAt_decode_succeeds_iff, fun last within ends before => ?_, ?_, ?_⟩
    · apply readAt_decode_of_endsAt within ends
      intro place less
      exact goesOnAt_of_before ends (Nat.add_lt_add_left less offset) (before place less)
    · exact (exists_message_iff rfl (by decide)).trans readAt_decode_tooLarge_iff
    · exact (exists_message_iff rfl (by decide)).trans readAt_decode_truncated_iff

end Offsets

section Width

variable {digits : Bytes} {value : Nat}

theorem Spells.exists_low (spells : Spells digits value) :
    ∃ front last low, digits = front ++ [last] ∧ last < 0x80 ∧ low < 128 ^ front.length ∧
      value = low + 128 ^ front.length * last.toNat := by
  induction spells with
  | @last byte small => exact ⟨[], byte, 0, rfl, small, Nat.zero_lt_one, by simp⟩
  | @more byte rest high large _ ih =>
    obtain ⟨front, last, low, rfl, small, bound, rfl⟩ := ih
    have digit : byte.toNat - 0x80 < 128 := by
      rw [← toNat_and_low_of_not_lt large]
      exact toNat_and_low_lt byte
    refine ⟨byte :: front, last, byte.toNat - 0x80 + 0x80 * low, rfl, small, ?_, ?_⟩
    · rw [List.length_cons, pow_succ]
      omega
    · rw [List.length_cons, Nat.pow_succ', Nat.mul_assoc, Nat.mul_add, Nat.add_assoc]

/-- Ten bytes of which the last has more than its lowest bit. -/
def Overwide (digits : Bytes) : Prop :=
  digits.length = maxLength ∧ ∃ last, digits.getLast? = some last ∧ 1 < last

theorem Spells.lt_pow (spells : Spells digits value) : value < 128 ^ digits.length := by
  induction spells with
  | @last byte small => simpa using UInt8.lt_iff_toNat_lt.1 small
  | @more byte rest high large _ ih =>
    have size := byte.toNat_lt
    rw [List.length_cons, Nat.pow_succ]
    omega

theorem IsVarint.lt_two_pow_70 (varint : IsVarint digits value) : value < 2 ^ 70 := by
  calc
    value < 128 ^ digits.length := varint.spells.lt_pow
    _ ≤ 128 ^ 10 := Nat.pow_le_pow_right (by decide) varint.short
    _ = 2 ^ 70 := by decide

theorem IsVarint.lt_two_pow_64_iff (varint : IsVarint digits value) :
    value < 2 ^ 64 ↔ ¬Overwide digits := by
  by_cases ten : digits.length = 10
  · obtain ⟨front, last, low, rfl, small, bound, rfl⟩ := varint.spells.exists_low
    have nine : front.length = 9 := by simpa using ten
    have wide : Overwide (front ++ [last]) ↔ 1 < last.toNat := by
      simp [Overwide, maxLength, nine, UInt8.lt_iff_toNat_lt]
    rw [wide]
    rw [nine] at bound ⊢
    omega
  · have short := varint.short
    have less : value < 2 ^ 64 := by
      calc
        value < 128 ^ digits.length := varint.spells.lt_pow
        _ ≤ 128 ^ 9 := Nat.pow_le_pow_right (by decide) (by rw [maxLength] at short; omega)
        _ < 2 ^ 64 := by decide
    exact ⟨fun _ both => ten both.1, fun _ => less⟩

end Width

end GoMetadata.Wire.Varint
