import GoMetadata.Proofs.BuildEvent.Reading
import GoMetadata.Proofs.BuildEvent.RoundTrip

/-!
Messages with fields that their readers do not know. Such fields may be put in between any two
fields of a message, and of the messages nested in it, whatever bytes they hold; what is read stays
the same. So events are still read when their writer has more to say.
-/

namespace GoMetadata

open Wire

/-- Bytes that come from a message by putting in fields which its kind ignores. A nested message
that is extended in turn stands in a field of its new length. -/
inductive Extends : MessageKind → Bytes → Bytes → Prop where
  | done {kind : MessageKind} : Extends kind [] []
  | insert {kind : MessageKind} {inserted original extended : Bytes} {field : Field} :
      IsField inserted field → kind.Ignores field → Extends kind original extended →
      Extends kind original (inserted ++ extended)
  | keep {kind : MessageKind} {kept original extended : Bytes} {field : Field} :
      IsField kept field → Extends kind original extended →
      Extends kind (kept ++ original) (kept ++ extended)
  | nested {kind inner : MessageKind} {number : Nat}
      {before after content grown original extended : Bytes} :
      kind.content? number = some (.message inner) → Extends inner content grown →
      IsField before ⟨number, .delimited content⟩ → IsField after ⟨number, .delimited grown⟩ →
      Extends kind original extended → Extends kind (before ++ original) (after ++ extended)

theorem Extends.of_isMessage {bytes : Bytes} {fields : List Field} (kind : MessageKind)
    (message : IsMessage bytes fields) : Extends kind bytes bytes := by
  induction message with
  | nil => exact .done
  | cons spelled _ ih => exact .keep spelled ih

theorem Extends.append {kind : MessageKind} {first second grownFirst grownSecond : Bytes}
    (extension : Extends kind first grownFirst) (next : Extends kind second grownSecond) :
    Extends kind (first ++ second) (grownFirst ++ grownSecond) := by
  induction extension with
  | done => exact next
  | insert spelled ignored _ ih =>
    rw [List.append_assoc]
    exact .insert spelled ignored (ih next)
  | keep spelled _ ih =>
    rw [List.append_assoc, List.append_assoc]
    exact .keep spelled (ih next)
  | nested known within before after _ _ ih =>
    rw [List.append_assoc, List.append_assoc]
    exact .nested known within before after (ih next)

theorem Extends.encode_nested {kind inner : MessageKind} {number : Nat} {content grown : Bytes}
    (known : kind.content? number = some (.message inner)) (within : Extends inner content grown)
    (small : content.length < 2 ^ 70) (smallGrown : grown.length < 2 ^ 70) :
    Extends kind (encodeNested number content) (encodeNested number grown) := by
  have bounded : number ≠ 0 ∧ number < 2 ^ 60 := by
    unfold MessageKind.content? at known
    split at known <;> simp_all
  have before : IsField (encodeNested number content) ⟨number, .delimited content⟩ :=
    isField_encode bounded.1 bounded.2 small
  have after : IsField (encodeNested number grown) ⟨number, .delimited grown⟩ :=
    isField_encode bounded.1 bounded.2 smallGrown
  have alone := Extends.nested known within before after .done
  rwa [List.append_nil, List.append_nil] at alone

theorem Extends.foldFields_eq {kind : MessageKind} {original extended : Bytes}
    (extension : Extends kind original extended) (value : kind.Value) :
    foldFields kind.absorb value extended = foldFields kind.absorb value original := by
  induction extension with
  | done => rfl
  | insert spelled ignored _ ih =>
    rw [spelled.foldFields_append, absorb_of_ignores ignored]
    exact ih value
  | keep spelled _ ih =>
    rw [spelled.foldFields_append, spelled.foldFields_append]
    cases absorbed : MessageKind.absorb _ value _ with
    | error fault => rfl
    | ok next => exact ih next
  | @nested kind inner number before after content grown original extended known _ old new _ within
      ih =>
    have same : (ContentKind.message inner).decode grown =
        (ContentKind.message inner).decode content := within inner.empty
    obtain ⟨put, absorbs, -⟩ := exists_put known
    rw [new.foldFields_append, old.foldFields_append, absorbs, absorbs, same]
    cases (ContentKind.message inner).decode content with
    | error fault => rfl
    | ok read => exact ih (put read value)

theorem Extends.decode_eq {kind : MessageKind} {original extended : Bytes}
    (extension : Extends kind original extended) : kind.decode extended = kind.decode original :=
  extension.foldFields_eq kind.empty

/-- An event is read back from its bytes and from all bytes that extend them. -/
theorem parseBuildEvent_of_extends {event : BuildEvent} {bytes : Bytes}
    (small : event.encode.length < 2 ^ 70) (extension : Extends .event event.encode bytes) :
    parseBuildEvent bytes = .ok event := by
  have same : BuildEvent.decode bytes = BuildEvent.decode event.encode := extension.decode_eq
  rw [parseBuildEvent, same, BuildEvent.decode_encode small]
  rfl

/-- The definition of a set, with a varint before its name, fixed bytes behind the name of its file,
and a field between its name and its files that holds what elsewhere marks the last message. -/
theorem parseBuildEvent_of_extends_in_parts :
    let event : BuildEvent :=
      { id := { namedSet := some "0" }, definition := some { files := [{ name := "f" }] } }
    let bytes : Bytes :=
      [0x0a, 0x07, 0x08, 0x07, 0x6a, 0x03, 0x0a, 0x01, 0x30, 0xa2, 0x01, 0x03, 0xa0, 0x01, 0x01,
        0x7a, 0x0a, 0x0a, 0x08, 0x0a, 0x01, 0x66, 0x1d, 0x01, 0x02, 0x03, 0x04]
    event.encode.length < 2 ^ 70 ∧ Extends .event event.encode bytes ∧
      parseBuildEvent bytes = .ok event := by
  intro event bytes
  have small : event.encode.length < 2 ^ 70 := by decide +kernel
  have inId : Extends .eventId [0x6a, 0x03, 0x0a, 0x01, 0x30]
      [0x08, 0x07, 0x6a, 0x03, 0x0a, 0x01, 0x30] := by
    have inserted : IsField [0x08, 0x07] ⟨1, .varint 7⟩ := isField_of_readField rfl
    have name : IsField [0x6a, 0x03, 0x0a, 0x01, 0x30] ⟨13, .delimited [0x0a, 0x01, 0x30]⟩ :=
      isField_of_readField rfl
    exact .insert inserted id (.of_isMessage _ name.isMessage)
  have inFile : Extends .file [0x0a, 0x01, 0x66]
      [0x0a, 0x01, 0x66, 0x1d, 0x01, 0x02, 0x03, 0x04] := by
    have name : IsField [0x0a, 0x01, 0x66] ⟨1, .delimited [0x66]⟩ := isField_of_readField rfl
    have inserted : IsField [0x1d, 0x01, 0x02, 0x03, 0x04] ⟨3, .fixed32 [0x01, 0x02, 0x03, 0x04]⟩ :=
      isField_of_readField rfl
    exact .keep name (.insert inserted trivial .done)
  have inSet : Extends .namedSet (encodeNested 1 [0x0a, 0x01, 0x66])
      (encodeNested 1 [0x0a, 0x01, 0x66, 0x1d, 0x01, 0x02, 0x03, 0x04]) :=
    .encode_nested rfl inFile (by decide) (by decide)
  have lookalike : IsField [0xa2, 0x01, 0x03, 0xa0, 0x01, 0x01]
      ⟨20, .delimited [0xa0, 0x01, 0x01]⟩ := isField_of_readField (by cbv)
  have inEvent := (Extends.encode_nested (rfl : MessageKind.event.content? 1 = _) inId
    (by decide) (by decide)).append (.insert lookalike rfl
      (.encode_nested (rfl : MessageKind.event.content? 15 = _) inSet (by decide +kernel)
        (by decide +kernel)))
  have written : encodeNested 1 [0x6a, 0x03, 0x0a, 0x01, 0x30] ++
      encodeNested 15 (encodeNested 1 [0x0a, 0x01, 0x66]) = event.encode := by
    decide +kernel
  have extended : encodeNested 1 [0x08, 0x07, 0x6a, 0x03, 0x0a, 0x01, 0x30] ++
      ([0xa2, 0x01, 0x03, 0xa0, 0x01, 0x01] ++
        encodeNested 15 (encodeNested 1 [0x0a, 0x01, 0x66, 0x1d, 0x01, 0x02, 0x03, 0x04])) =
          bytes := by
    decide +kernel
  have extension : Extends .event event.encode bytes := written ▸ extended ▸ inEvent
  exact ⟨small, extension, parseBuildEvent_of_extends small extension⟩

end GoMetadata
