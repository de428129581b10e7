import GoMetadata.Proofs.Wire.Digits

/-!
Readers by index. They ask for bytes of the whole data by index, and for stretches of it by their
bounds. At every offset within the data each of them finds what its counterpart finds at the front of
the bytes from there on; it never asks for a byte that is not there, and where it succeeds, it moves
on, but not beyond the end.
-/

namespace GoMetadata.Wire

open Varint

/-- What can be wrong where bytes are asked for by index: one that is not there, or what the reader
reports. -/
inductive IndexFault (ε : Type) where
  | outOfRange
  | reported (fault : ε)
  deriving DecidableEq, Repr

section Indexing

variable {ε α β : Type}

/-- At every offset within the data the reader by index finds what is read from there on. -/
def Indexes (reader : Bytes → Nat → Except (IndexFault ε) (α × Nat))
    (read : Bytes → Except ε (α × Bytes)) : Prop :=
  ∀ data offset, offset ≤ data.length →
    reader data offset = (readAt read data offset).mapError .reported

def InRange (reader : Bytes → Nat → Except (IndexFault ε) (α × Nat)) : Prop :=
  ∀ data offset, offset ≤ data.length → reader data offset ≠ .error .outOfRange

def MovesOn (reader : Bytes → Nat → Except (IndexFault ε) (α × Nat)) : Prop :=
  ∀ data offset found next, offset ≤ data.length → reader data offset = .ok (found, next) →
    offset < next ∧ next ≤ data.length

/-- The reader by index is its counterpart, and safe. -/
structure Reads (reader : Bytes → Nat → Except (IndexFault ε) (α × Nat))
    (read : Bytes → Except ε (α × Bytes)) : Prop where
  same : Indexes reader read
  inRange : InRange reader
  movesOn : MovesOn reader

variable {reader : Bytes → Nat → Except (IndexFault ε) (α × Nat)}
  {read : Bytes → Except ε (α × Bytes)}

theorem Indexes.exists_reported (same : Indexes reader read) {data : Bytes} {offset : Nat}
    {fault : IndexFault ε} (inside : offset ≤ data.length)
    (failed : reader data offset = .error fault) :
    ∃ reason, fault = .reported reason ∧ read (data.drop offset) = .error reason := by
  rw [same data offset inside, readAt] at failed
  cases outcome : read (data.drop offset) with
  | error reason =>
    rw [outcome] at failed
    cases failed
    exact ⟨reason, rfl, rfl⟩
  | ok found =>
    rw [outcome] at failed
    cases failed

theorem Indexes.inRange (same : Indexes reader read) : InRange reader := by
  intro data offset inside missing
  obtain ⟨reason, reported, -⟩ := same.exists_reported inside missing
  cases reported

theorem Indexes.eq_ok_iff (same : Indexes reader read) {data : Bytes} {offset next : Nat}
    {found : α} (inside : offset ≤ data.length) :
    reader data offset = .ok (found, next) ↔ readAt read data offset = .ok (found, next) := by
  rw [same data offset inside, mapError_eq_ok_iff]

theorem Indexes.movesOn (same : Indexes reader read) (takes : Takes read) : MovesOn reader := by
  intro data offset found next inside reads
  obtain ⟨later, within, -⟩ := takes.of_readAt ((same.eq_ok_iff inside).1 reads)
  exact ⟨later, within⟩

theorem Indexes.reads (same : Indexes reader read) (takes : Takes read) : Reads reader read :=
  ⟨same, same.inRange, same.movesOn takes⟩

/-- Two readers one after the other, of which the second may depend on what the first finds. -/
theorem Indexes.bind (same : Indexes reader read) (takes : Takes read)
    {thenReader : α → Bytes → Nat → Except (IndexFault ε) (β × Nat)}
    {thenRead : α → Bytes → Except ε (β × Bytes)}
    (thenSame : ∀ found, Indexes (thenReader found) (thenRead found)) :
    Indexes (fun data offset => reader data offset >>= fun (found, next) => thenReader found data next)
      fun bytes => read bytes >>= fun (found, rest) => thenRead found rest := by
  intro data offset inside
  simp only [same data offset inside]
  cases first : readAt read data offset with
  | error fault =>
    rw [readAt, readAt_eq_error_iff.1 first]
    rfl
  | ok found =>
    obtain ⟨found, next⟩ := found
    obtain ⟨-, within, inner⟩ := takes.of_readAt first
    rw [readAt, inner]
    exact thenSame found data next within

theorem indexes_return (outcome : Except ε β) :
    Indexes (fun _ offset => outcome.mapError .reported >>= fun value => pure (value, offset))
      fun bytes => outcome >>= fun value => pure (value, bytes) := by
  intro data offset inside
  have place : data.length - (data.drop offset).length = offset := by
    rw [List.length_drop]
    omega
  cases outcome with
  | error fault => rfl
  | ok value =>
    change _ = Except.ok (value, data.length - (data.drop offset).length)
    rw [place]
    rfl

end Indexing

namespace Varint

/-- Reads a varint byte by byte from an index on. What has been read fills the bits below `shift`. -/
def scan (data : Bytes) (result shift index : Nat) : Except (IndexFault Fault) (Nat × Nat) :=
  if data.length ≤ index then .error (.reported .truncatedVarint)
  else
    match data[index]? with
    | none => .error .outOfRange
    | some byte =>
      let joined := result ||| (byte &&& 0x7F).toNat <<< shift
      if byte < 0x80 then .ok (joined, index + 1)
      else if 64 ≤ shift + 7 then .error (.reported .varintTooLarge)
      else scan data joined (shift + 7) (index + 1)
termination_by 64 - shift

theorem or_shiftLeft {result shift : Nat} (below : result < 2 ^ shift) (digit : Nat) :
    result ||| digit <<< shift = result + 2 ^ shift * digit := by
  rw [Nat.shiftLeft_eq, Nat.mul_comm, Nat.or_comm, ← Nat.two_pow_add_eq_or_of_lt below, Nat.add_comm]

theorem two_pow_add_seven (shift : Nat) : 2 ^ (shift + 7) = 2 ^ shift * 128 :=
  Nat.pow_add 2 shift 7

theorem add_mul_lt {result shift digit : Nat} (below : result < 2 ^ shift) (small : digit < 128) :
    result + 2 ^ shift * digit < 2 ^ (shift + 7) := by
  calc
    result + 2 ^ shift * digit < 2 ^ shift * (digit + 1) := by
      rw [Nat.mul_succ]
      omega
    _ ≤ 2 ^ shift * 128 := Nat.mul_le_mul_left _ small
    _ = 2 ^ (shift + 7) := (two_pow_add_seven shift).symm

theorem scan_eq (data : Bytes) (result shift index room : Nat) (below : result < 2 ^ shift)
    (allowed : shift + 7 * (room + 1) = 70) :
    scan data result shift index =
      ((decodeWithin (room + 1) (data.drop index)).map fun (high, rest) =>
        (result + 2 ^ shift * high, data.length - rest.length)).mapError .reported := by
  fun_induction scan data result shift index generalizing room
  case case1 result shift index beyond =>
    rw [List.drop_eq_nil_of_le beyond]
    rfl
  case case2 result shift index inside missing =>
    exact absurd (List.getElem?_eq_none_iff.1 missing) inside
  case case3 result shift index inside byte there joined small =>
    obtain ⟨known, rfl⟩ := List.getElem?_eq_some_iff.1 there
    have place : data.length - (data.drop (index + 1)).length = index + 1 := by
      rw [List.length_drop]
      omega
    have join : joined = result + 2 ^ shift * data[index].toNat :=
      (or_shiftLeft below _).trans (by rw [toNat_and_low_of_lt small])
    rw [List.drop_eq_getElem_cons known, decodeWithin, if_pos small, join]
    simp only [Except.map, Except.mapError, place]
  case case4 result shift index inside byte there large full =>
    obtain ⟨known, rfl⟩ := List.getElem?_eq_some_iff.1 there
    obtain rfl : room = 0 := by omega
    rw [List.drop_eq_getElem_cons known, decodeWithin, if_neg large]
    rfl
  case case5 result shift index inside byte there joined large more ih =>
    obtain ⟨known, rfl⟩ := List.getElem?_eq_some_iff.1 there
    obtain ⟨room, rfl⟩ : ∃ fewer, room = fewer + 1 := ⟨room - 1, by omega⟩
    have join : joined = result + 2 ^ shift * (data[index].toNat - 0x80) :=
      (or_shiftLeft below _).trans (by rw [toNat_and_low_of_not_lt large])
    have filled : joined < 2 ^ (shift + 7) := by
      rw [join, ← toNat_and_low_of_not_lt large]
      exact add_mul_lt below (toNat_and_low_lt _)
    rw [ih room filled (by omega), List.drop_eq_getElem_cons known, decodeWithin, if_neg large]
    cases decodeWithin (room + 1) (data.drop (index + 1)) with
    | error fault => rfl
    | ok found =>
      obtain ⟨high, rest⟩ := found
      have value : joined + 2 ^ (shift + 7) * high =
          result + 2 ^ shift * (data[index].toNat - 0x80 + 0x80 * high) := by
        rw [join, two_pow_add_seven, Nat.mul_add, Nat.mul_assoc, Nat.add_assoc]
      simp only [Except.map, Except.mapError, value]

end Varint

def varintAt (data : Bytes) (offset : Nat) : Except (IndexFault Fault) (Nat × Nat) :=
  Varint.scan data 0 0 offset

def splitKey (key : Nat) : Except Fault (Nat × Nat) :=
  let number := key >>> 3
  if number = 0 then .error .fieldNumberZero else .ok (number, key &&& 0b111)

def keyAt (data : Bytes) (offset : Nat) : Except (IndexFault Fault) ((Nat × Nat) × Nat) := do
  let (key, next) ← varintAt data offset
  let found ← (splitKey key).mapError .reported
  return (found, next)

def stretchAt (fault : Fault) (size : Nat) (data : Bytes) (offset : Nat) :
    Except (IndexFault Fault) (Bytes × Nat) :=
  if data.length < offset + size then .error (.reported fault)
  else .ok (data.extract offset (offset + size), offset + size)

def delimitedAt (data : Bytes) (offset : Nat) : Except (IndexFault Fault) (Bytes × Nat) := do
  let (size, start) ← varintAt data offset
  stretchAt .truncatedDelimited size data start

def fixedAt (width : Nat) (data : Bytes) (offset : Nat) :
    Except (IndexFault Fault) (Bytes × Nat) :=
  stretchAt .truncatedFixed width data offset

def skipAt (wireType : Nat) (data : Bytes) (offset : Nat) :
    Except (IndexFault Fault) (Unit × Nat) :=
  match wireType with
  | 0 => (varintAt data offset).map fun (_, next) => ((), next)
  | 1 => (fixedAt 8 data offset).map fun (_, next) => ((), next)
  | 2 => (delimitedAt data offset).map fun (_, next) => ((), next)
  | 5 => (fixedAt 4 data offset).map fun (_, next) => ((), next)
  | other => .error (.reported (.unsupportedWireType other))

def textAt (data : Bytes) (offset : Nat) : Except (IndexFault Fault) (String × Nat) := do
  let (content, next) ← delimitedAt data offset
  let text ← (decodeText content).mapError .reported
  return (text, next)

theorem indexes_varintAt : Indexes varintAt decode := by
  intro data offset _
  have whole := scan_eq data 0 0 offset 9 Nat.zero_lt_one rfl
  rw [varintAt, whole, readAt, decode, maxLength]
  cases decodeWithin 10 (data.drop offset) with
  | error fault => rfl
  | ok found => simp only [Except.map, Except.mapError, pow_zero, Nat.one_mul, Nat.zero_add]

theorem indexes_stretchAt (fault : Fault) (size : Nat) :
    Indexes (stretchAt fault size) fun bytes =>
      if bytes.length < size then .error fault else .ok (bytes.take size, bytes.drop size) := by
  intro data offset inside
  have left : (data.drop offset).length = data.length - offset := List.length_drop
  rw [stretchAt, readAt]
  by_cases short : data.length < offset + size
  · rw [if_pos short, if_pos (by omega)]
    rfl
  · have place : data.length - ((data.drop offset).drop size).length = offset + size := by
      simp only [List.length_drop]
      omega
    have width : offset + size - offset = size := Nat.add_sub_cancel_left offset size
    rw [if_neg short, if_neg (by omega), List.extract_eq_take_drop, width]
    simp only [Except.map, Except.mapError, place]

theorem readKey_eq (bytes : Bytes) :
    readKey bytes = decode bytes >>= fun (key, rest) =>
      splitKey key >>= fun found => pure (found, rest) := by
  rw [readKey]
  cases decode bytes with
  | error fault => rfl
  | ok found =>
    obtain ⟨key, rest⟩ := found
    have number : key >>> 3 = key / 8 := Nat.shiftRight_eq_div_pow key 3
    have wireType : key &&& 0b111 = key % 8 := Nat.and_two_pow_sub_one_eq_mod key 3
    simp only [bind, Except.bind, splitKey, number, wireType]
    by_cases zero : key / 8 = 0
    · simp only [if_pos zero]
    · simp only [if_neg zero, pure, Except.pure]

theorem readDelimited_eq (bytes : Bytes) :
    readDelimited bytes = decode bytes >>= fun (size, rest) =>
      if rest.length < size then .error .truncatedDelimited
      else .ok (rest.take size, rest.drop size) := by
  rw [readDelimited]
  cases decode bytes <;> rfl

theorem indexes_keyAt : Indexes keyAt readKey := by
  rw [funext readKey_eq]
  exact indexes_varintAt.bind takes_decode fun key => indexes_return (splitKey key)

theorem indexes_delimitedAt : Indexes delimitedAt readDelimited := by
  rw [funext readDelimited_eq]
  exact indexes_varintAt.bind takes_decode fun size => indexes_stretchAt .truncatedDelimited size

theorem indexes_fixedAt (width : Nat) : Indexes (fixedAt width) (readFixed width) :=
  indexes_stretchAt .truncatedFixed width

theorem indexes_textAt : Indexes textAt readText :=
  indexes_delimitedAt.bind takes_readDelimited fun content => indexes_return (decodeText content)

theorem Indexes.pass {α : Type} {reader : Bytes → Nat → Except (IndexFault Fault) (α × Nat)}
    {read : Bytes → Except Fault (α × Bytes)} (same : Indexes reader read) (f : α → Payload) :
    Indexes (fun data offset => (reader data offset).map fun (_, next) => ((), next)) fun bytes =>
      ((read bytes).map fun (found, rest) => (f found, rest)).map fun (_, rest) => ((), rest) := by
  intro data offset inside
  simp only [same data offset inside, readAt]
  cases read (data.drop offset) <;> rfl

theorem indexes_skipAt (wireType : Nat) : Indexes (skipAt wireType) (skip wireType) := by
  intro data offset inside
  unfold skipAt
  split
  case h_1 => exact indexes_varintAt.pass .varint data offset inside
  case h_2 => exact (indexes_fixedAt 8).pass .fixed64 data offset inside
  case h_3 => exact indexes_delimitedAt.pass .delimited data offset inside
  case h_4 => exact (indexes_fixedAt 4).pass .fixed32 data offset inside
  case h_5 other notVarint notFixed64 notDelimited notFixed32 =>
    rw [readAt, skip, readPayload]
    · rfl
    all_goals assumption

def IsContent (data : Bytes) (offset : Nat) (content : Bytes) (next : Nat) : Prop :=
  ∃ start, varintAt data offset = .ok (content.length, start) ∧ start + content.length = next ∧
    content = data.extract start next

theorem isContent_of_delimitedAt {data content : Bytes} {offset next : Nat}
    (inside : offset ≤ data.length) (read : delimitedAt data offset = .ok (content, next)) :
    IsContent data offset content next := by
  obtain ⟨start, size, reached, same⟩ :=
    exists_start_of_readDelimited ((indexes_delimitedAt.eq_ok_iff inside).1 read)
  exact ⟨start, (indexes_varintAt.eq_ok_iff inside).2 size, reached, same.symm⟩

theorem isContent_of_textAt {data : Bytes} {offset next : Nat} {text : String}
    (inside : offset ≤ data.length) (read : textAt data offset = .ok (text, next)) :
    IsContent data offset (Utf8.encode text) next := by
  have delimited := readAt_readText ((indexes_textAt.eq_ok_iff inside).1 read)
  exact isContent_of_delimitedAt inside ((indexes_delimitedAt.eq_ok_iff inside).2 delimited)

end GoMetadata.Wire
