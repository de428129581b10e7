import GoMetadata.Proofs.Wire.Varint
import GoMetadata.Wire

/-!
Messages as concatenations of complete fields. Reading a message succeeds exactly where its bytes
are such a concatenation and every field in turn can be absorbed; a message that is read to its end
leaves what follows it to be read as if it stood alone.
-/

namespace GoMetadata.Wire

open Varint

/-- The bytes of one complete field. -/
inductive IsField : Bytes → Field → Prop where
  | varint {key digits : Bytes} {number value : Nat} : number ≠ 0 →
      IsVarint key (number * 8) → IsVarint digits value →
      IsField (key ++ digits) ⟨number, .varint value⟩
  | fixed64 {key content : Bytes} {number : Nat} : number ≠ 0 →
      IsVarint key (number * 8 + 1) → content.length = 8 →
      IsField (key ++ content) ⟨number, .fixed64 content⟩
  | delimited {key size content : Bytes} {number : Nat} : number ≠ 0 →
      IsVarint key (number * 8 + 2) → IsVarint size content.length →
      IsField (key ++ (size ++ content)) ⟨number, .delimited content⟩
  | fixed32 {key content : Bytes} {number : Nat} : number ≠ 0 →
      IsVarint key (number * 8 + 5) → content.length = 4 →
      IsField (key ++ content) ⟨number, .fixed32 content⟩

inductive IsMessage : Bytes → List Field → Prop where
  | nil : IsMessage [] []
  | cons {bytes rest : Bytes} {field : Field} {fields : List Field} : IsField bytes field →
      IsMessage rest fields → IsMessage (bytes ++ rest) (field :: fields)

theorem mapError_eq_ok_iff {ε ε' α : Type} {outcome : Except ε α} {f : ε → ε'} {result : α} :
    outcome.mapError f = .ok result ↔ outcome = .ok result := by
  cases outcome with
  | error fault => exact ⟨nofun, nofun⟩
  | ok value =>
    constructor
    all_goals
      intro same
      cases same
      rfl

theorem bind_eq_ok_iff {ε α β : Type} {outcome : Except ε α} {next : α → Except ε β} {result : β} :
    outcome >>= next = .ok result ↔ ∃ value, outcome = .ok value ∧ next value = .ok result := by
  constructor
  · intro succeeded
    cases outcome with
    | error fault => cases succeeded
    | ok value => exact ⟨value, rfl, succeeded⟩
  · rintro ⟨value, rfl, succeeded⟩
    exact succeeded

theorem readDelimited_append {size content : Bytes} (varint : IsVarint size content.length)
    (rest : Bytes) : readDelimited (size ++ content ++ rest) = .ok (content, rest) := by
  have enough : ¬(content ++ rest).length < content.length := by simp
  rw [readDelimited, List.append_assoc, varint.decode_append]
  simp only [if_neg enough, List.take_left, List.drop_left]

theorem exists_of_readDelimited {bytes content rest : Bytes}
    (read : readDelimited bytes = .ok (content, rest)) :
    ∃ size, bytes = size ++ content ++ rest ∧ IsVarint size content.length := by
  unfold readDelimited at read
  split at read
  · cases read
  next length tail head =>
    split at read
    · cases read
    next enough =>
      obtain ⟨size, rfl, varint⟩ := decode_eq_ok_iff.1 head
      simp only [Except.ok.injEq, Prod.mk.injEq] at read
      obtain ⟨rfl, rfl⟩ := read
      refine ⟨size, by rw [List.append_assoc, List.take_append_drop], ?_⟩
      rwa [List.length_take_of_le (by omega)]

theorem readDelimited_of_cut {size content part : Bytes}
    (varint : IsVarint size content.length) (cut : part <+: size ++ content)
    (short : part ≠ size ++ content) :
    readDelimited part =
      .error (if part.length < size.length then .truncatedVarint else .truncatedDelimited) := by
  by_cases inside : part.length < size.length
  · have sizeCut : part <+: size :=
      List.prefix_of_prefix_length_le cut (List.prefix_append size content) (Nat.le_of_lt inside)
    have sizeShort : part ≠ size := fun same => Nat.lt_irrefl _ (same ▸ inside)
    rw [readDelimited, varint.decode_of_cut sizeCut sizeShort, if_pos inside]
  · have whole : size <+: part :=
      List.prefix_of_prefix_length_le (List.prefix_append size content) cut (Nat.not_lt.1 inside)
    obtain ⟨kept, rfl⟩ := whole
    have keptCut : kept <+: content := (List.prefix_append_right_inj size).1 cut
    have keptShort : kept.length ≠ content.length :=
      fun same => short (congrArg (size ++ ·) (keptCut.eq_of_length same))
    have less : kept.length < content.length := Nat.lt_of_le_of_ne keptCut.length_le keptShort
    rw [readDelimited, varint.decode_append, if_neg inside]
    simp only [if_pos less]

theorem readFixed_append {width : Nat} {content : Bytes} (whole : content.length = width)
    (rest : Bytes) : readFixed width (content ++ rest) = .ok (content, rest) := by
  subst whole
  have enough : ¬(content ++ rest).length < content.length := by simp
  rw [readFixed, if_neg enough, List.take_left, List.drop_left]

theorem exists_of_readFixed {width : Nat} {bytes content rest : Bytes}
    (read : readFixed width bytes = .ok (content, rest)) :
    bytes = content ++ rest ∧ content.length = width := by
  unfold readFixed at read
  split at read
  · cases read
  next enough =>
    simp only [Except.ok.injEq, Prod.mk.injEq] at read
    obtain ⟨rfl, rfl⟩ := read
    exact ⟨(List.take_append_drop width bytes).symm, List.length_take_of_le (by omega)⟩

theorem readField_key {key rest : Bytes} {number wireType : Nat} (positive : number ≠ 0)
    (known : wireType < 8) (varint : IsVarint key (number * 8 + wireType)) :
    readField (key ++ rest) =
      (readPayload wireType rest).map fun (payload, rest) => (⟨number, payload⟩, rest) := by
  have quotient : (number * 8 + wireType) / 8 = number := by omega
  have remainder : (number * 8 + wireType) % 8 = wireType := by omega
  rw [readField, varint.decode_append]
  simp only [quotient, remainder, if_neg positive]

theorem IsField.readField_append {bytes : Bytes} {field : Field} (spelled : IsField bytes field)
    (rest : Bytes) : readField (bytes ++ rest) = .ok (field, rest) := by
  cases spelled with
  | varint positive key digits =>
    rw [List.append_assoc, readField_key positive (by decide : 0 < 8) key, readPayload,
      digits.decode_append]
    rfl
  | fixed64 positive key whole =>
    rw [List.append_assoc, readField_key positive (by decide : 1 < 8) key, readPayload,
      readFixed_append whole]
    rfl
  | delimited positive key size =>
    rw [List.append_assoc, readField_key positive (by decide : 2 < 8) key, readPayload,
      readDelimited_append size]
    rfl
  | fixed32 positive key whole =>
    rw [List.append_assoc, readField_key positive (by decide : 5 < 8) key, readPayload,
      readFixed_append whole]
    rfl

theorem isField_of_readPayload {wireType number : Nat} {key bytes rest : Bytes} {payload : Payload}
    (positive : number ≠ 0) (varint : IsVarint key (number * 8 + wireType))
    (read : readPayload wireType bytes = .ok (payload, rest)) :
    ∃ spelled, key ++ bytes = spelled ++ rest ∧ IsField spelled ⟨number, payload⟩ := by
  unfold readPayload at read
  split at read
  · obtain ⟨⟨value, tail⟩, inner, same⟩ := except_map_eq_ok read
    cases same
    obtain ⟨digits, rfl, spelled⟩ := decode_eq_ok_iff.1 inner
    exact ⟨key ++ digits, (List.append_assoc ..).symm, .varint positive varint spelled⟩
  · obtain ⟨⟨content, tail⟩, inner, same⟩ := except_map_eq_ok read
    cases same
    obtain ⟨rfl, whole⟩ := exists_of_readFixed inner
    exact ⟨key ++ content, (List.append_assoc ..).symm, .fixed64 positive varint whole⟩
  · obtain ⟨⟨content, tail⟩, inner, same⟩ := except_map_eq_ok read
    cases same
    obtain ⟨size, rfl, length⟩ := exists_of_readDelimited inner
    exact ⟨key ++ (size ++ content), (List.append_assoc ..).symm, .delimited positive varint length⟩
  · obtain ⟨⟨content, tail⟩, inner, same⟩ := except_map_eq_ok read
    cases same
    obtain ⟨rfl, whole⟩ := exists_of_readFixed inner
    exact ⟨key ++ content, (List.append_assoc ..).symm, .fixed32 positive varint whole⟩
  · cases read

theorem readField_eq_ok_iff {bytes rest : Bytes} {field : Field} :
    readField bytes = .ok (field, rest) ↔
      ∃ spelled, bytes = spelled ++ rest ∧ IsField spelled field := by
  constructor
  · intro read
    unfold readField at read
    split at read
    · cases read
    next code tail head =>
      split at read
      · cases read
      next positive =>
        obtain ⟨key, rfl, varint⟩ := decode_eq_ok_iff.1 head
        obtain ⟨⟨payload, after⟩, inner, same⟩ := except_map_eq_ok read
        cases same
        have parts : code / 8 * 8 + code % 8 = code := by omega
        exact isField_of_readPayload positive (parts.symm ▸ varint) inner
  · rintro ⟨spelled, rfl, field⟩
    exact field.readField_append rest

theorem isField_of_readField {bytes : Bytes} {field : Field}
    (read : readField bytes = .ok (field, [])) : IsField bytes field := by
  obtain ⟨spelled, rfl, spells⟩ := readField_eq_ok_iff.1 read
  rwa [List.append_nil]

theorem IsField.ne_nil {bytes : Bytes} {field : Field} (spelled : IsField bytes field) :
    bytes ≠ [] := by
  rintro rfl
  have shorter := length_lt_of_readField (spelled.readField_append [])
  simp at shorter

section Reading

variable {σ : Type} {step : σ → Field → Except Fault σ} {state result : σ}

theorem foldFields_nil : foldFields step state [] = .ok state := by
  rw [foldFields, if_pos rfl]

theorem IsField.foldFields_append {bytes : Bytes} {field : Field} (spelled : IsField bytes field)
    (rest : Bytes) :
    foldFields step state (bytes ++ rest) =
      (step state field).bind fun state => foldFields step state rest := by
  have full : bytes ++ rest ≠ [] := fun empty => spelled.ne_nil (List.append_eq_nil_iff.1 empty).1
  rw [foldFields, if_neg full]
  split
  next fault failed => rw [spelled.readField_append] at failed; cases failed
  next found tail read =>
    rw [spelled.readField_append] at read
    simp only [Except.ok.injEq, Prod.mk.injEq] at read
    obtain ⟨rfl, rfl⟩ := read
    cases step state field <;> rfl

theorem foldFields_of_error {bytes : Bytes} {fault : Fault} (full : bytes ≠ [])
    (failed : readField bytes = .error fault) : foldFields step state bytes = .error fault := by
  rw [foldFields, if_neg full]
  split
  next found =>
    rw [failed] at found
    cases found
    rfl
  next found =>
    rw [failed] at found
    cases found

theorem IsMessage.foldFields_append {bytes : Bytes} {fields : List Field}
    (message : IsMessage bytes fields) (rest : Bytes) :
    foldFields step state (bytes ++ rest) =
      (fields.foldlM step state).bind fun state => foldFields step state rest := by
  induction message generalizing state with
  | nil => rfl
  | cons spelled _ ih =>
    rw [List.append_assoc, spelled.foldFields_append, List.foldlM_cons]
    cases absorbed : step state _ with
    | error fault => rfl
    | ok next => exact ih

theorem IsMessage.foldFields_eq {bytes : Bytes} {fields : List Field}
    (message : IsMessage bytes fields) :
    foldFields step state bytes = fields.foldlM step state := by
  have whole : foldFields step state (bytes ++ []) = _ := message.foldFields_append []
  rw [List.append_nil] at whole
  rw [whole]
  cases fields.foldlM step state with
  | error fault => rfl
  | ok result => exact foldFields_nil

theorem isMessage_of_foldFields {bytes : Bytes} (read : foldFields step state bytes = .ok result) :
    ∃ fields, IsMessage bytes fields := by
  fun_induction foldFields step state bytes
  case case1 => exact ⟨[], .nil⟩
  case case4 state bytes full field rest head next absorbed ih =>
    obtain ⟨spelled, rfl, isField⟩ := readField_eq_ok_iff.1 head
    obtain ⟨fields, message⟩ := ih read
    exact ⟨field :: fields, .cons isField message⟩
  all_goals cases read

/-- What reading accepts: a concatenation of fields of which each in turn can be absorbed. -/
theorem foldFields_eq_ok_iff {bytes : Bytes} :
    foldFields step state bytes = .ok result ↔
      ∃ fields, IsMessage bytes fields ∧ fields.foldlM step state = .ok result := by
  constructor
  · intro read
    obtain ⟨fields, message⟩ := isMessage_of_foldFields read
    exact ⟨fields, message, message.foldFields_eq ▸ read⟩
  · rintro ⟨fields, message, absorbed⟩
    rw [message.foldFields_eq, absorbed]

theorem exists_foldlM_iff {sound : Field → Prop}
    (absorbs : ∀ state field, (∃ next, step state field = .ok next) ↔ sound field)
    {fields : List Field} :
    (∃ result, fields.foldlM step state = .ok result) ↔ ∀ field ∈ fields, sound field := by
  induction fields generalizing state with
  | nil => simp [pure, Except.pure]
  | cons field fields ih =>
    rw [List.forall_mem_cons, ← absorbs state field]
    cases absorbed : step state field with
    | error fault => simp [List.foldlM_cons, absorbed, bind, Except.bind]
    | ok next =>
      rw [← @ih next]
      simp [List.foldlM_cons, absorbed, bind, Except.bind]

/-- Where a field is absorbed or not whatever was read before it, reading succeeds exactly on the
concatenations of fields that are absorbed. -/
theorem exists_foldFields_iff {sound : Field → Prop}
    (absorbs : ∀ state field, (∃ next, step state field = .ok next) ↔ sound field)
    {bytes : Bytes} :
    (∃ result, foldFields step state bytes = .ok result) ↔
      ∃ fields, IsMessage bytes fields ∧ ∀ field ∈ fields, sound field := by
  simp only [foldFields_eq_ok_iff]
  rw [exists_comm]
  refine exists_congr fun fields => ?_
  rw [exists_and_left, exists_foldlM_iff absorbs]

end Reading

theorem IsMessage.append {first second : Bytes} {fields others : List Field}
    (message : IsMessage first fields) (next : IsMessage second others) :
    IsMessage (first ++ second) (fields ++ others) := by
  induction message with
  | nil => exact next
  | cons spelled _ ih =>
    rw [List.append_assoc]
    exact .cons spelled ih

/-- Bytes can be divided into fields in one way only. -/
theorem IsMessage.unique {bytes : Bytes} {fields others : List Field}
    (message : IsMessage bytes fields) (other : IsMessage bytes others) : fields = others := by
  induction message generalizing others with
  | nil =>
    generalize empty : ([] : Bytes) = bytes at other
    cases other with
    | nil => rfl
    | cons spelled _ => exact absurd (List.append_eq_nil_iff.1 empty.symm).1 spelled.ne_nil
  | @cons bytes rest field fields spelled _ ih =>
    generalize same : bytes ++ rest = whole at other
    cases other with
    | nil => exact absurd (List.append_eq_nil_iff.1 same).1 spelled.ne_nil
    | @cons otherBytes otherRest otherField others otherSpelled later =>
      have read := spelled.readField_append rest
      rw [same, otherSpelled.readField_append] at read
      simp only [Except.ok.injEq, Prod.mk.injEq] at read
      obtain ⟨rfl, rfl⟩ := read
      rw [ih later]

theorem IsField.isMessage {bytes : Bytes} {field : Field} (spelled : IsField bytes field) :
    IsMessage bytes [field] := by
  have message := IsMessage.cons spelled .nil
  rwa [List.append_nil] at message

theorem IsMessage.length_content_lt {bytes content : Bytes} {number : Nat} {fields : List Field}
    (message : IsMessage bytes fields) (member : ⟨number, .delimited content⟩ ∈ fields) :
    content.length < bytes.length := by
  induction message with
  | nil => cases member
  | cons spelled _ ih =>
    rw [List.length_append]
    rcases List.mem_cons.1 member with rfl | later
    · cases spelled with
      | @delimited key size _ _ _ varint _ =>
        have filled : key ≠ [] := by
          rintro rfl
          cases varint.spells
        have positive := List.length_pos_iff.2 filled
        simp only [List.length_append]
        omega
    · have inner := ih later
      omega

theorem isField_encode {number : Nat} {payload : Payload} (positive : number ≠ 0)
    (bounded : number < 2 ^ 60) (fits : match payload with
      | .varint value => value < 2 ^ 70
      | .fixed64 content => content.length = 8
      | .delimited content => content.length < 2 ^ 70
      | .fixed32 content => content.length = 4) :
    IsField (Field.encode ⟨number, payload⟩) ⟨number, payload⟩ := by
  have key : ∀ wireType < 8,
      IsVarint (Varint.encode (number * 8 + wireType)) (number * 8 + wireType) :=
    fun wireType known => isVarint_encode (by omega)
  cases payload with
  | varint value => exact .varint positive (key 0 (by decide)) (isVarint_encode fits)
  | fixed64 content => exact .fixed64 positive (key 1 (by decide)) fits
  | delimited content => exact .delimited positive (key 2 (by decide)) (isVarint_encode fits)
  | fixed32 content => exact .fixed32 positive (key 5 (by decide)) fits

end GoMetadata.Wire
