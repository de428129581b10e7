import GoMetadata.Proofs.BuildEvent.Concatenation
import GoMetadata.Proofs.Wire.Digits

/-!
Flags of messages. A flag is set exactly where the last varint under its number is not zero, and of
that varint all seventy bits count. So it agrees with the low 64 bits unless the varint takes ten
bytes and has a bit above them.
-/

namespace GoMetadata

open Wire Varint

inductive Flag where
  | incomplete
  | success
  | lastMessage
  deriving DecidableEq, Repr

def Flag.kind : Flag → MessageKind
  | .incomplete => .outputGroup
  | .success => .completion
  | .lastMessage => .event

def Flag.number : Flag → Nat
  | .incomplete => 4
  | .success => 1
  | .lastMessage => 20

def Flag.get : (flag : Flag) → flag.kind.Value → Bool
  | .incomplete => OutputGroup.incomplete
  | .success => Completion.success
  | .lastMessage => BuildEvent.lastMessage

/-- The varint in a field with the number. -/
def varint? (number : Nat) : Field → Option Nat
  | ⟨other, .varint value⟩ => if other = number then some value else none
  | _ => none

def varintsUnder (number : Nat) (fields : List Field) : List Nat :=
  fields.filterMap (varint? number)

/-- The varint that a flag is taken from: the last one under its number, or zero without any. -/
def Flag.held (flag : Flag) (fields : List Field) : Nat :=
  (varintsUnder flag.number fields).getLastD 0

theorem Flag.mem_slots (flag : Flag) : (flag.number, .single flag.get) ∈ flag.kind.slots := by
  cases flag with
  | incomplete => exact .tail _ (.tail _ (.head _))
  | success => exact .head _
  | lastMessage => exact .tail _ (.tail _ (.tail _ (.head _)))

theorem Flag.exists_varint (flag : Flag) {payload : Payload}
    (taken : ¬flag.kind.Ignores ⟨flag.number, payload⟩) : ∃ held, payload = .varint held := by
  cases payload with
  | varint held => exact ⟨held, rfl⟩
  | fixed64 content => exact absurd trivial taken
  | fixed32 content => exact absurd trivial taken
  | delimited content =>
    have ignored : flag.kind.Ignores ⟨flag.number, .delimited content⟩ := by
      cases flag <;> rfl
    exact absurd ignored taken

section Absorbing

variable {flag : Flag} {value next : flag.kind.Value}

theorem Flag.get_of_varint {held : Nat}
    (absorbed : flag.kind.absorb value ⟨flag.number, .varint held⟩ = .ok next) :
    flag.get next = decide (held ≠ 0) := by
  cases flag with
  | incomplete | success | lastMessage =>
    cases absorbed
    rfl

theorem Flag.get_of_other {field : Field} (absorbed : flag.kind.absorb value field = .ok next)
    (other : varint? flag.number field = none) : flag.get next = flag.get value := by
  have absent : ¬flag.kind.Gives [field] flag.number := by
    rintro ⟨⟨number, payload⟩, member, same, taken⟩
    cases List.mem_singleton.1 member
    cases same
    obtain ⟨held, rfl⟩ := flag.exists_varint taken
    have found : varint? flag.number ⟨flag.number, .varint held⟩ = some held := if_pos rfl
    exact nomatch other.symm.trans found
  rcases alike flag.kind field with ⟨fault, refuses⟩ | ⟨put, absorbs, changes⟩
  · rw [refuses] at absorbed
    cases absorbed
  · rw [absorbs] at absorbed
    cases absorbed
    exact ((changes value value _ flag.mem_slots).2 absent).1

theorem Flag.get_of_absorb {field : Field} (absorbed : flag.kind.absorb value field = .ok next) :
    flag.get next =
      ((varint? flag.number field).map fun held => decide (held ≠ 0)).getD (flag.get value) := by
  cases found : varint? flag.number field with
  | none => exact get_of_other absorbed found
  | some held =>
    obtain ⟨number, payload⟩ := field
    cases payload with
    | fixed64 | delimited | fixed32 => cases found
    | varint other =>
      obtain ⟨rfl, rfl⟩ : number = flag.number ∧ other = held := by
        simpa [varint?] using found
      exact get_of_varint absorbed

theorem Flag.get_of_foldlM {fields : List Field}
    (absorbed : fields.foldlM flag.kind.absorb value = .ok next) :
    flag.get next =
      ((varintsUnder flag.number fields).getLast?.map fun held => decide (held ≠ 0)).getD
        (flag.get value) := by
  induction fields generalizing value with
  | nil =>
    cases absorbed
    rfl
  | cons field fields ih =>
    obtain ⟨middle, first, rest⟩ := foldlM_cons_eq_ok_iff.1 absorbed
    rw [ih rest, get_of_absorb first, varintsUnder, varintsUnder]
    cases found : varint? flag.number field with
    | none => rw [List.filterMap_cons_none found, Option.map_none, Option.getD_none]
    | some held =>
      rw [List.filterMap_cons_some found, List.getLast?_cons]
      cases (fields.filterMap (varint? flag.number)).getLast? <;> rfl

end Absorbing

theorem Flag.get_empty (flag : Flag) : flag.get flag.kind.empty = false := by
  cases flag <;> rfl

theorem Flag.get_of_decode {flag : Flag} {bytes : Bytes} {fields : List Field}
    {value : flag.kind.Value} (message : IsMessage bytes fields)
    (read : flag.kind.decode bytes = .ok value) :
    flag.get value = true ↔ flag.held fields ≠ 0 := by
  rw [MessageKind.decode, message.foldFields_eq] at read
  rw [Flag.get_of_foldlM read, flag.get_empty, Flag.held, List.getLastD_eq_getLast?]
  cases (varintsUnder flag.number fields).getLast? <;> simp

/-- Every varint of a message is read from it at some offset. -/
theorem exists_readAt_of_mem {bytes : Bytes} {fields : List Field} {number held : Nat}
    (message : IsMessage bytes fields) (member : held ∈ varintsUnder number fields) :
    ∃ offset next, readAt decode bytes offset = .ok (held, next) := by
  induction message with
  | nil => cases member
  | @cons bytes rest field fields spelled _ ih =>
    obtain ⟨found, inFields, isVarint⟩ := List.mem_filterMap.1 member
    rcases List.mem_cons.1 inFields with rfl | later
    · cases spelled with
      | fixed64 | delimited | fixed32 => cases isVarint
      | @varint key digits other value _ _ spells =>
        obtain ⟨-, rfl⟩ : other = number ∧ value = held := by simpa [varint?] using isVarint
        have head : readAt decode (digits ++ rest) 0 = .ok (value, digits.length) :=
          readAt_of_drop (by simp) (by simpa using spells.decode_append rest)
        rw [List.append_assoc]
        exact ⟨_, _, takes_decode.readAt_append head key⟩
    · obtain ⟨offset, next, read⟩ := ih (List.mem_filterMap.2 ⟨found, later, isVarint⟩)
      exact ⟨_, _, takes_decode.readAt_append read bytes⟩

theorem width_of_readAt {data : Bytes} {offset value next : Nat}
    (read : readAt decode data offset = .ok (value, next)) :
    value < 2 ^ 70 ∧ (value < 2 ^ 64 ↔ ¬Overwide (data.extract offset next)) := by
  obtain ⟨later, inside, inner⟩ := takes_decode.of_readAt read
  obtain ⟨digits, split, varint⟩ := decode_eq_ok_iff.1 inner
  have lengths := congrArg List.length split
  simp only [List.length_append, List.length_drop] at lengths
  have width : next - offset = digits.length := by omega
  have same : data.extract offset next = digits := by
    rw [List.extract_eq_take_drop, width, split, List.take_left]
  rw [same]
  exact ⟨varint.lt_two_pow_70, varint.lt_two_pow_64_iff⟩

/-- A value stays within 64 bits unless its varint takes ten bytes of which the last has more than
its lowest bit, and a flag that is taken from a value within 64 bits is set exactly where these are
not all zero. A wider value sets the flag as well if its low 64 bits are zero. -/
theorem width_and_flags_unless_overwide (bytes : Bytes) :
    (∀ offset value next, readAt decode bytes offset = .ok (value, next) →
      value < 2 ^ 70 ∧ (value < 2 ^ 64 ↔ ¬Overwide (bytes.extract offset next))) ∧
    ∀ (flag : Flag) (fields : List Field) (value : flag.kind.Value),
      IsMessage bytes fields → flag.kind.decode bytes = .ok value →
      (flag.held fields ≠ 0 → ∃ offset next,
        readAt decode bytes offset = .ok (flag.held fields, next)) ∧
      (flag.get value = true ↔ flag.held fields ≠ 0) ∧
      (flag.held fields < 2 ^ 64 →
        (flag.get value = true ↔ flag.held fields % 2 ^ 64 ≠ 0)) := by
  refine ⟨fun _ _ _ => width_of_readAt, fun flag fields value message read => ?_⟩
  have set := Flag.get_of_decode message read
  refine ⟨fun positive => ?_, set, fun small => ?_⟩
  · apply exists_readAt_of_mem message
    rw [Flag.held, List.getLastD_eq_getLast?] at positive ⊢
    cases last : (varintsUnder flag.number fields).getLast? with
    | none =>
      rw [last] at positive
      exact absurd rfl positive
    | some held => exact List.mem_of_getLast? last
  · rw [set, Nat.mod_eq_of_lt small]

theorem width_and_flags_unless_overwide_all_64 :
    let bytes : Bytes := [0x08, 0xff, 0xff, 0xff, 0xff, 0xff, 0xff, 0xff, 0xff, 0xff, 0x01]
    let fields : List Field := [⟨1, .varint (2 ^ 64 - 1)⟩]
    let value : Completion := { success := true }
    readAt decode bytes 1 = .ok (2 ^ 64 - 1, 11) ∧ ¬Overwide (bytes.extract 1 11) ∧
      IsMessage bytes fields ∧ Completion.decode bytes = .ok value ∧
      (value.success = true ↔ Flag.success.held fields % 2 ^ 64 ≠ 0) := by
  intro bytes fields value
  have read : readAt decode bytes 1 = .ok (2 ^ 64 - 1, 11) := rfl
  have decoded : Flag.success.kind.decode bytes = .ok value := by cbv
  have message : IsMessage bytes fields := (isField_of_readField rfl).isMessage
  have small : Flag.success.held fields < 2 ^ 64 := by decide
  obtain ⟨width, flags⟩ := width_and_flags_unless_overwide bytes
  have narrow := (width 1 _ _ read).2.1 (by decide)
  exact ⟨read, narrow, message, decoded, (flags .success fields value message decoded).2.2 small⟩

/-- Ten bytes whose only bit of a value is the one above the low 64. -/
def bitSixtyFour : Bytes :=
  [0x80, 0x80, 0x80, 0x80, 0x80, 0x80, 0x80, 0x80, 0x80, 0x02]

/-- A value beyond 64 bits is read, and sets every flag although its low 64 bits are zero. -/
theorem not_within_64_bits :
    readAt decode bitSixtyFour 0 = .ok (2 ^ 64, 10) ∧
    Completion.decode (0x08 :: bitSixtyFour) = .ok { success := true } ∧
    OutputGroup.decode (0x20 :: bitSixtyFour) = .ok { incomplete := true } ∧
    BuildEvent.decode (0xa0 :: 0x01 :: bitSixtyFour) = .ok { lastMessage := true } := by
  refine ⟨rfl, ?_, ?_, ?_⟩
  · cbv
  · cbv
  · cbv

end GoMetadata
