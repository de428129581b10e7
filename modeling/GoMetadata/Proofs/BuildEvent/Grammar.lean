import GoMetadata.Proofs.BuildEvent.Reading
import GoMetadata.Proofs.Text.Utf8

/-!
The language of build events: which bytes are well formed as a message of each kind. Reading
accepts exactly that language, since whether a field can be absorbed does not depend on what was
read before it.
-/

namespace GoMetadata

open Wire

/-- Well-formed messages: complete fields, one after another, in which all that is interpreted holds
text or a well-formed message of its kind. Nothing is asked of the content of other fields. -/
inductive WellFormed : MessageKind → Bytes → Prop where
  | intro {kind : MessageKind} {bytes : Bytes} {fields : List Field} : IsMessage bytes fields →
      (∀ number content, ⟨number, .delimited content⟩ ∈ fields →
        kind.content? number = some .text → Utf8.IsText content) →
      (∀ number content inner, ⟨number, .delimited content⟩ ∈ fields →
        kind.content? number = some (.message inner) → WellFormed inner content) →
      WellFormed kind bytes

def MessageKind.Accepts (kind : MessageKind) (bytes : Bytes) : Prop :=
  ∃ value, kind.decode bytes = .ok value

def ContentKind.Accepts : ContentKind → Bytes → Prop
  | .text, content => Utf8.IsText content
  | .message kind, content => kind.Accepts content

/-- Fields that a message of a kind can absorb. -/
def MessageKind.AcceptsField (kind : MessageKind) (field : Field) : Prop :=
  ∀ content expected, field.payload = .delimited content →
    kind.content? field.number = some expected → expected.Accepts content

theorem exists_decodeText_iff {content : Bytes} :
    (∃ text, decodeText content = .ok text) ↔ Utf8.IsText content := by
  rw [Utf8.isText_iff]
  refine exists_congr fun text => ?_
  rw [decodeText, mapError_eq_ok_iff]

theorem ContentKind.exists_decode_iff {expected : ContentKind} {content : Bytes} :
    (∃ item, expected.decode content = .ok item) ↔ expected.Accepts content := by
  cases expected with
  | text => exact exists_decodeText_iff
  | message kind => exact Iff.rfl

theorem exists_map_iff {α β : Type} {outcome : Except Fault α} (f : α → β) :
    (∃ result, outcome.map f = .ok result) ↔ ∃ value, outcome = .ok value := by
  cases outcome <;> simp [Except.map]

theorem acceptsField_iff {kind : MessageKind} {number : Nat} {content : Bytes}
    {expected : ContentKind} (known : kind.content? number = some expected) :
    kind.AcceptsField ⟨number, .delimited content⟩ ↔ expected.Accepts content := by
  constructor
  · intro accepts
    exact accepts content expected rfl known
  · intro accepts other found same foundKnown
    cases same
    cases known.symm.trans foundKnown
    exact accepts

theorem acceptsField_of_ignores {kind : MessageKind} {field : Field}
    (ignored : kind.Ignores field) : kind.AcceptsField field := by
  intro content expected delimited known
  obtain ⟨number, payload⟩ := field
  cases delimited
  cases ignored.symm.trans known

theorem absorbs_iff_of_ignores {kind : MessageKind} {field : Field} (value : kind.Value)
    (ignored : kind.Ignores field) :
    (∃ next, kind.absorb value field = .ok next) ↔ kind.AcceptsField field :=
  iff_of_true ⟨value, absorb_of_ignores ignored value⟩ (acceptsField_of_ignores ignored)

theorem absorbs_iff_of_content? {kind : MessageKind} {number : Nat} {content : Bytes}
    {expected : ContentKind} (known : kind.content? number = some expected) (value : kind.Value) :
    (∃ next, kind.absorb value ⟨number, .delimited content⟩ = .ok next) ↔
      expected.Accepts content := by
  obtain ⟨put, absorbs, -⟩ := exists_put known
  rw [absorbs, exists_map_iff, ContentKind.exists_decode_iff]

/-- Whether a field can be absorbed depends on its content, and not on the value. -/
theorem MessageKind.absorbs_iff (kind : MessageKind) (value : kind.Value) (field : Field) :
    (∃ next, kind.absorb value field = .ok next) ↔ kind.AcceptsField field := by
  obtain ⟨number, payload⟩ := field
  cases payload with
  | delimited content =>
    cases known : kind.content? number with
    | none => exact absorbs_iff_of_ignores value known
    | some expected => rw [acceptsField_iff known, absorbs_iff_of_content? known]
  | varint varint =>
    exact iff_of_true (exists_absorb_varint kind value number varint)
      fun _ _ delimited => nomatch delimited
  | fixed64 content => exact absorbs_iff_of_ignores value trivial
  | fixed32 content => exact absorbs_iff_of_ignores value trivial

theorem accepts_iff (kind : MessageKind) (bytes : Bytes) :
    kind.Accepts bytes ↔
      ∃ fields, IsMessage bytes fields ∧ ∀ field ∈ fields, kind.AcceptsField field :=
  exists_foldFields_iff kind.absorbs_iff

def MessageKind.depth : MessageKind → Nat
  | .setId | .label | .file => 0
  | .namedSet | .outputGroup | .eventId => 1
  | .completion => 2
  | .event => 3

theorem depth_lt_of_content? {kind inner : MessageKind} {number : Nat}
    (known : kind.content? number = some (.message inner)) : inner.depth < kind.depth := by
  unfold MessageKind.content? at known
  split at known <;> simp_all [MessageKind.depth]
  all_goals subst known; decide

theorem wellFormed_of_accepts {kind : MessageKind} {bytes : Bytes} (accepts : kind.Accepts bytes) :
    WellFormed kind bytes := by
  obtain ⟨fields, message, all⟩ := (accepts_iff kind bytes).1 accepts
  refine .intro message (fun number content member known => ?_)
    fun number content inner member known => ?_
  · exact all _ member content .text rfl known
  · have _shallower := depth_lt_of_content? known
    exact wellFormed_of_accepts (all _ member content (.message inner) rfl known)
termination_by kind.depth

theorem accepts_of_wellFormed {kind : MessageKind} {bytes : Bytes}
    (wellFormed : WellFormed kind bytes) : kind.Accepts bytes := by
  induction wellFormed with
  | @intro kind bytes fields message texts _ ih =>
    refine (accepts_iff kind bytes).2 ⟨fields, message, ?_⟩
    rintro ⟨number, payload⟩ member content expected delimited known
    cases delimited
    cases expected with
    | text => exact texts number content member known
    | message inner => exact ih number content inner member known

/-- Reading succeeds exactly on well-formed messages, for every kind of message. -/
theorem accepts_iff_wellFormed (kind : MessageKind) (bytes : Bytes) :
    kind.Accepts bytes ↔ WellFormed kind bytes :=
  ⟨wellFormed_of_accepts, accepts_of_wellFormed⟩

/-- An event is read from exactly the well-formed bytes; from all others comes an error of the log
that names no place in it. -/
theorem parseBuildEvent_succeeds_iff (bytes : Bytes) :
    ((∃ event, parseBuildEvent bytes = .ok event) ↔ WellFormed .event bytes) ∧
    ((∃ reason, parseBuildEvent bytes = .error (.brokenLog reason none)) ↔
      ¬WellFormed .event bytes) := by
  have accepted : MessageKind.event.Accepts bytes ↔ ∃ event, BuildEvent.decode bytes = .ok event :=
    Iff.rfl
  rw [← accepts_iff_wellFormed, accepted]
  simp only [parseBuildEvent, mapError_eq_ok_iff, true_and]
  cases BuildEvent.decode bytes with
  | error fault => exact ⟨fun _ => nofun, fun _ => ⟨fault.message, rfl⟩⟩
  | ok event => exact ⟨nofun, fun failed => absurd ⟨event, rfl⟩ failed⟩

end GoMetadata
