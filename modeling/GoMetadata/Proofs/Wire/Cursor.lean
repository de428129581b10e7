import GoMetadata.Proofs.Text.Utf8
import GoMetadata.Proofs.Wire.Message

/-!
Readers seen from the whole data. A reader takes bytes off the front; at an offset of the data it
reads what stands from there on and comes to another offset. Every reader of the wire format moves
on where it succeeds, and never beyond the end.
-/

namespace GoMetadata.Wire

open Varint

section Offsets

variable {ε α : Type} {read : Bytes → Except ε (α × Bytes)}

def readAt (read : Bytes → Except ε (α × Bytes)) (data : Bytes) (offset : Nat) :
    Except ε (α × Nat) :=
  (read (data.drop offset)).map fun (found, rest) => (found, data.length - rest.length)

/-- Where the reader succeeds, it has taken bytes off the front, and left the others. -/
def Takes (read : Bytes → Except ε (α × Bytes)) : Prop :=
  ∀ bytes found rest, read bytes = .ok (found, rest) → ∃ taken, taken ≠ [] ∧ bytes = taken ++ rest

theorem drop_append_length {data taken rest : Bytes} {offset : Nat} (filled : taken ≠ [])
    (split : data.drop offset = taken ++ rest) :
    offset + taken.length ≤ data.length ∧ data.drop (offset + taken.length) = rest := by
  have positive := List.length_pos_iff.2 filled
  have lengths := congrArg List.length split
  simp only [List.length_drop, List.length_append] at lengths
  constructor
  · omega
  · rw [← List.drop_drop, split, List.drop_left]

theorem Takes.of_readAt (takes : Takes read) {data : Bytes} {offset next : Nat} {found : α}
    (reads : readAt read data offset = .ok (found, next)) :
    offset < next ∧ next ≤ data.length ∧ read (data.drop offset) = .ok (found, data.drop next) := by
  obtain ⟨⟨value, rest⟩, inner, same⟩ := except_map_eq_ok reads
  cases same
  obtain ⟨taken, filled, split⟩ := takes _ _ _ inner
  obtain ⟨inside, left⟩ := drop_append_length filled split
  have positive := List.length_pos_iff.2 filled
  have length := congrArg List.length left
  rw [List.length_drop] at length
  have place : data.length - rest.length = offset + taken.length := by omega
  rw [place, left]
  exact ⟨Nat.lt_add_of_pos_right positive, inside, inner⟩

theorem readAt_of_drop {data : Bytes} {offset next : Nat} {found : α} (inside : next ≤ data.length)
    (reads : read (data.drop offset) = .ok (found, data.drop next)) :
    readAt read data offset = .ok (found, next) := by
  have place : data.length - (data.drop next).length = next := by
    rw [List.length_drop]
    omega
  rw [readAt, reads]
  exact congrArg (fun offset => Except.ok (found, offset)) place

theorem Takes.readAt_eq_ok_iff (takes : Takes read) {data : Bytes} {offset next : Nat} {found : α} :
    readAt read data offset = .ok (found, next) ↔
      next ≤ data.length ∧ read (data.drop offset) = .ok (found, data.drop next) :=
  ⟨fun reads => (takes.of_readAt reads).2, fun ⟨inside, reads⟩ => readAt_of_drop inside reads⟩

theorem Takes.readAt_append (takes : Takes read) {data : Bytes} {offset next : Nat} {found : α}
    (reads : readAt read data offset = .ok (found, next)) (front : Bytes) :
    readAt read (front ++ data) (front.length + offset) = .ok (found, front.length + next) := by
  obtain ⟨inside, inner⟩ := takes.readAt_eq_ok_iff.1 reads
  apply readAt_of_drop
  · rw [List.length_append]
    exact Nat.add_le_add_left inside _
  · rwa [← List.drop_drop, ← List.drop_drop, List.drop_left]

theorem readAt_eq_error_iff {data : Bytes} {offset : Nat} {fault : ε} :
    readAt read data offset = .error fault ↔ read (data.drop offset) = .error fault := by
  rw [readAt]
  cases read (data.drop offset) with
  | error found => simp only [Except.map, Except.error.injEq]
  | ok found => exact ⟨nofun, nofun⟩

end Offsets

def readKey (bytes : Bytes) : Except Fault ((Nat × Nat) × Bytes) :=
  match decode bytes with
  | .error fault => .error fault
  | .ok (key, rest) =>
    if key / 8 = 0 then .error .fieldNumberZero else .ok ((key / 8, key % 8), rest)

def skip (wireType : Nat) (bytes : Bytes) : Except Fault (Unit × Bytes) :=
  (readPayload wireType bytes).map fun (_, rest) => ((), rest)

def readText (bytes : Bytes) : Except Fault (String × Bytes) := do
  let (content, rest) ← readDelimited bytes
  return (← decodeText content, rest)

theorem readField_eq (bytes : Bytes) :
    readField bytes = (do
      let ((number, wireType), rest) ← readKey bytes
      let (payload, rest) ← readPayload wireType rest
      return (⟨number, payload⟩, rest)) := by
  rw [readField, readKey]
  cases decode bytes with
  | error fault => rfl
  | ok found =>
    obtain ⟨key, rest⟩ := found
    by_cases zero : key / 8 = 0
    · simp only [if_pos zero]
      rfl
    · simp only [if_neg zero]
      rfl

theorem Varint.Spells.ne_nil {digits : Bytes} {value : Nat} (spells : Spells digits value) :
    digits ≠ [] := by
  cases spells with
  | last | more => exact List.cons_ne_nil _ _

theorem takes_decode : Takes decode := by
  intro bytes value rest read
  obtain ⟨digits, same, varint⟩ := decode_eq_ok_iff.1 read
  exact ⟨digits, varint.spells.ne_nil, same⟩

theorem takes_readKey : Takes readKey := by
  intro bytes found rest read
  unfold readKey at read
  split at read
  · cases read
  next key tail head =>
    split at read
    · cases read
    · cases read
      exact takes_decode _ _ _ head

theorem takes_readDelimited : Takes readDelimited := by
  intro bytes content rest read
  obtain ⟨size, same, varint⟩ := exists_of_readDelimited read
  refine ⟨size ++ content, ?_, same⟩
  intro empty
  exact varint.spells.ne_nil (List.append_eq_nil_iff.1 empty).1

theorem takes_readFixed {width : Nat} (positive : 0 < width) : Takes (readFixed width) := by
  intro bytes content rest read
  obtain ⟨same, whole⟩ := exists_of_readFixed read
  exact ⟨content, List.length_pos_iff.1 (whole ▸ positive), same⟩

theorem takes_map {α β : Type} {read : Bytes → Except Fault (α × Bytes)} (takes : Takes read)
    (f : α → β) : Takes fun bytes => (read bytes).map fun (found, rest) => (f found, rest) := by
  intro bytes found rest mapped
  obtain ⟨⟨value, tail⟩, inner, same⟩ := except_map_eq_ok mapped
  cases same
  exact takes _ _ _ inner

theorem takes_readPayload (wireType : Nat) : Takes (readPayload wireType) := by
  intro bytes payload rest read
  unfold readPayload at read
  split at read
  · exact takes_map takes_decode _ _ _ _ read
  · exact takes_map (takes_readFixed (by decide)) _ _ _ _ read
  · exact takes_map takes_readDelimited _ _ _ _ read
  · exact takes_map (takes_readFixed (by decide)) _ _ _ _ read
  · cases read

theorem takes_skip (wireType : Nat) : Takes (skip wireType) :=
  takes_map (takes_readPayload wireType) fun _ => ()

theorem takes_readText : Takes readText := by
  intro bytes text rest read
  obtain ⟨⟨content, tail⟩, delimited, decoded⟩ := bind_eq_ok_iff.1 read
  obtain ⟨found, -, same⟩ := bind_eq_ok_iff.1 decoded
  cases same
  exact takes_readDelimited _ _ _ delimited

theorem takes_readField : Takes readField := by
  intro bytes field rest read
  obtain ⟨spelled, same, isField⟩ := readField_eq_ok_iff.1 read
  exact ⟨spelled, isField.ne_nil, same⟩

theorem exists_start_of_readDelimited {data content : Bytes} {offset next : Nat}
    (read : readAt readDelimited data offset = .ok (content, next)) :
    ∃ start, readAt decode data offset = .ok (content.length, start) ∧
      start + content.length = next ∧ data.extract start next = content := by
  obtain ⟨inside, reads⟩ := takes_readDelimited.readAt_eq_ok_iff.1 read
  obtain ⟨size, split, varint⟩ := exists_of_readDelimited reads
  rw [List.append_assoc] at split
  obtain ⟨room, left⟩ := drop_append_length varint.spells.ne_nil split
  have head : decode (data.drop offset) =
      .ok (content.length, data.drop (offset + size.length)) := by
    rw [left, split]
    exact varint.decode_append _
  have length := congrArg List.length left
  simp only [List.length_drop, List.length_append] at length
  have reached : offset + size.length + content.length = next := by omega
  have width : next - (offset + size.length) = content.length := by omega
  refine ⟨offset + size.length, readAt_of_drop room head, reached, ?_⟩
  rw [List.extract_eq_take_drop, width, left, List.take_left]

theorem readAt_readText {data : Bytes} {offset next : Nat} {text : String}
    (read : readAt readText data offset = .ok (text, next)) :
    readAt readDelimited data offset = .ok (Utf8.encode text, next) := by
  obtain ⟨inside, reads⟩ := takes_readText.readAt_eq_ok_iff.1 read
  obtain ⟨⟨content, tail⟩, delimited, decoded⟩ := bind_eq_ok_iff.1 reads
  obtain ⟨found, isText, same⟩ := bind_eq_ok_iff.1 decoded
  cases same
  obtain rfl := Utf8.decode_eq_ok_iff.1 (mapError_eq_ok_iff.1 isText)
  exact readAt_of_drop inside delimited

end GoMetadata.Wire
