import GoMetadata.Text.Utf8

/-!
The wire format. A message is a sequence of fields, each a number and a payload of one of four wire
types; numbers are varints. Fields are read from the front one at a time, and each step of the
reading leaves fewer bytes.
-/

namespace GoMetadata.Wire

inductive Fault where
  | truncatedVarint
  | varintTooLarge
  | fieldNumberZero
  | truncatedDelimited
  | truncatedFixed
  | unsupportedWireType (wireType : Nat)
  | invalidText (fault : Utf8.Fault)
  deriving DecidableEq, Repr

def Fault.message : Fault → String
  | truncatedVarint => "truncated varint"
  | varintTooLarge => "varint too large"
  | fieldNumberZero => "invalid field number 0"
  | truncatedDelimited => "truncated length-delimited field"
  | truncatedFixed => "truncated fixed-width field"
  | unsupportedWireType wireType => "unsupported wire type: " ++ toString wireType
  | invalidText fault => fault.message

/-!
Varints: natural numbers in base 128, the least digit first, every byte but the last marked by its
high bit. A reader takes at most ten bytes, so it reads every number below `2 ^ 70`.
-/

namespace Varint

def encode (value : Nat) : Bytes :=
  if value < 0x80 then [UInt8.ofNat value]
  else UInt8.ofNat (0x80 + value % 0x80) :: encode (value / 0x80)
termination_by value

def decodeWithin : Nat → Bytes → Except Fault (Nat × Bytes)
  | 0, _ => .error .varintTooLarge
  | _ + 1, [] => .error .truncatedVarint
  | room + 1, byte :: rest =>
    if byte < 0x80 then .ok (byte.toNat, rest)
    else (decodeWithin room rest).map fun (high, rest) => (byte.toNat - 0x80 + 0x80 * high, rest)

def maxLength : Nat := 10

def decode (bytes : Bytes) : Except Fault (Nat × Bytes) :=
  decodeWithin maxLength bytes

theorem length_lt_of_decodeWithin {room : Nat} {bytes : Bytes} {value : Nat} {rest : Bytes}
    (read : decodeWithin room bytes = .ok (value, rest)) : rest.length < bytes.length := by
  induction room generalizing bytes value with
  | zero => simp [decodeWithin] at read
  | succ room ih =>
    cases bytes with
    | nil => simp [decodeWithin] at read
    | cons byte tail =>
      rw [decodeWithin] at read
      split at read
      · cases read
        simp
      · cases deeper : decodeWithin room tail with
        | error fault => simp [deeper, Except.map] at read
        | ok found =>
          simp only [deeper, Except.map, Except.ok.injEq, Prod.mk.injEq] at read
          have shorter : rest.length < tail.length := by
            refine ih (show decodeWithin room tail = .ok (found.1, rest) from ?_)
            rw [deeper, ← read.2]
          simp only [List.length_cons]
          omega

theorem length_lt_of_decode {bytes : Bytes} {value : Nat} {rest : Bytes}
    (read : decode bytes = .ok (value, rest)) : rest.length < bytes.length :=
  length_lt_of_decodeWithin read

end Varint

/-! Fields and messages -/

inductive Payload where
  | varint (value : Nat)
  | fixed64 (content : Bytes)
  | delimited (content : Bytes)
  | fixed32 (content : Bytes)
  deriving DecidableEq, Repr

structure Field where
  number : Nat
  payload : Payload
  deriving DecidableEq, Repr

def encodeDelimited (content : Bytes) : Bytes :=
  Varint.encode content.length ++ content

def readDelimited (bytes : Bytes) : Except Fault (Bytes × Bytes) :=
  match Varint.decode bytes with
  | .error fault => .error fault
  | .ok (size, rest) =>
    if rest.length < size then .error .truncatedDelimited
    else .ok (rest.take size, rest.drop size)

def readFixed (width : Nat) (bytes : Bytes) : Except Fault (Bytes × Bytes) :=
  if bytes.length < width then .error .truncatedFixed
  else .ok (bytes.take width, bytes.drop width)

def Payload.wireType : Payload → Nat
  | varint _ => 0
  | fixed64 _ => 1
  | delimited _ => 2
  | fixed32 _ => 5

def Payload.encode : Payload → Bytes
  | varint value => Varint.encode value
  | fixed64 content => content
  | delimited content => encodeDelimited content
  | fixed32 content => content

def Field.encode (field : Field) : Bytes :=
  Varint.encode (field.number * 8 + field.payload.wireType) ++ field.payload.encode

def readPayload (wireType : Nat) (bytes : Bytes) : Except Fault (Payload × Bytes) :=
  match wireType with
  | 0 => (Varint.decode bytes).map fun (value, rest) => (.varint value, rest)
  | 1 => (readFixed 8 bytes).map fun (content, rest) => (.fixed64 content, rest)
  | 2 => (readDelimited bytes).map fun (content, rest) => (.delimited content, rest)
  | 5 => (readFixed 4 bytes).map fun (content, rest) => (.fixed32 content, rest)
  | other => .error (.unsupportedWireType other)

def readField (bytes : Bytes) : Except Fault (Field × Bytes) :=
  match Varint.decode bytes with
  | .error fault => .error fault
  | .ok (key, rest) =>
    if key / 8 = 0 then .error .fieldNumberZero
    else (readPayload (key % 8) rest).map fun (payload, rest) => (⟨key / 8, payload⟩, rest)

theorem length_lt_of_readDelimited {bytes content rest : Bytes}
    (read : readDelimited bytes = .ok (content, rest)) : rest.length < bytes.length := by
  unfold readDelimited at read
  split at read
  · simp at read
  next size tail head =>
    have shorter := Varint.length_lt_of_decode head
    split at read
    · simp at read
    · simp only [Except.ok.injEq, Prod.mk.injEq] at read
      have same := congrArg List.length read.2
      simp only [List.length_drop] at same
      omega

theorem length_le_of_readFixed {width : Nat} {bytes content rest : Bytes}
    (read : readFixed width bytes = .ok (content, rest)) : rest.length ≤ bytes.length := by
  unfold readFixed at read
  split at read
  · simp at read
  · simp only [Except.ok.injEq, Prod.mk.injEq] at read
    have same := congrArg List.length read.2
    simp only [List.length_drop] at same
    omega

theorem except_map_eq_ok {ε α β : Type} {f : α → β} {outcome : Except ε α} {result : β}
    (mapped : outcome.map f = .ok result) : ∃ value, outcome = .ok value ∧ f value = result := by
  cases outcome with
  | error fault => simp [Except.map] at mapped
  | ok value => exact ⟨value, rfl, by simpa [Except.map] using mapped⟩

theorem length_le_of_readPayload {wireType : Nat} {bytes rest : Bytes} {payload : Payload}
    (read : readPayload wireType bytes = .ok (payload, rest)) : rest.length ≤ bytes.length := by
  unfold readPayload at read
  split at read
  · obtain ⟨⟨_, tail⟩, inner, same⟩ := except_map_eq_ok read
    cases same
    exact Nat.le_of_lt (Varint.length_lt_of_decode inner)
  · obtain ⟨⟨_, tail⟩, inner, same⟩ := except_map_eq_ok read
    cases same
    exact length_le_of_readFixed inner
  · obtain ⟨⟨_, tail⟩, inner, same⟩ := except_map_eq_ok read
    cases same
    exact Nat.le_of_lt (length_lt_of_readDelimited inner)
  · obtain ⟨⟨_, tail⟩, inner, same⟩ := except_map_eq_ok read
    cases same
    exact length_le_of_readFixed inner
  · simp at read

theorem length_lt_of_readField {bytes rest : Bytes} {field : Field}
    (read : readField bytes = .ok (field, rest)) : rest.length < bytes.length := by
  unfold readField at read
  split at read
  · simp at read
  next key tail head =>
    have shorter := Varint.length_lt_of_decode head
    split at read
    · simp at read
    · obtain ⟨⟨_, after⟩, inner, same⟩ := except_map_eq_ok read
      cases same
      exact Nat.lt_of_le_of_lt (length_le_of_readPayload inner) shorter

/-- Reads a message: every field in turn takes the value built so far one step on. The first fault
ends the reading, whether it lies in the framing of a field or in what the step makes of it. -/
def foldFields {σ : Type} (step : σ → Field → Except Fault σ) (state : σ) (bytes : Bytes) :
    Except Fault σ :=
  if bytes = [] then .ok state
  else
    match _read : readField bytes with
    | .error fault => .error fault
    | .ok (field, rest) =>
      match step state field with
      | .error fault => .error fault
      | .ok state => foldFields step state rest
termination_by bytes.length
decreasing_by exact length_lt_of_readField _read

def decodeText (content : Bytes) : Except Fault String :=
  (Utf8.decode content).mapError .invalidText

end GoMetadata.Wire
