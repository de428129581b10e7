import GoMetadata.BuildEvent
import GoMetadata.Proofs.Wire.Message

/-!
The readers of all kinds of messages as one. A reader begins with an empty value and absorbs field
by field: text and nested messages are read by the reader of their own kind and put into the
component of their number, and a field that the reader does not know under its wire type leaves the
value as it is.
-/

namespace GoMetadata

open Wire

inductive MessageKind where
  | setId
  | label
  | file
  | namedSet
  | outputGroup
  | completion
  | eventId
  | event
  deriving DecidableEq, Repr

inductive ContentKind where
  | text
  | message (kind : MessageKind)
  deriving DecidableEq, Repr

/-- What the delimited fields of a message hold, by their numbers. The others are skipped. -/
def MessageKind.content? : MessageKind → Nat → Option ContentKind
  | .setId, 1 => some .text
  | .label, 1 => some .text
  | .file, 1 => some .text
  | .file, 2 => some .text
  | .file, 4 => some .text
  | .namedSet, 1 => some (.message .file)
  | .namedSet, 2 => some (.message .setId)
  | .outputGroup, 1 => some .text
  | .outputGroup, 3 => some (.message .setId)
  | .completion, 2 => some (.message .outputGroup)
  | .eventId, 5 => some (.message .label)
  | .eventId, 13 => some (.message .setId)
  | .event, 1 => some (.message .eventId)
  | .event, 8 => some (.message .completion)
  | .event, 15 => some (.message .namedSet)
  | _, _ => none

def MessageKind.Value : MessageKind → Type
  | .setId => SetId
  | .label => String
  | .file => File
  | .namedSet => NamedSet
  | .outputGroup => OutputGroup
  | .completion => Completion
  | .eventId => EventId
  | .event => BuildEvent

def MessageKind.empty : (kind : MessageKind) → kind.Value
  | .setId => ""
  | .label => ""
  | .file => ({} : File)
  | .namedSet => ({} : NamedSet)
  | .outputGroup => ({} : OutputGroup)
  | .completion => ({} : Completion)
  | .eventId => ({} : EventId)
  | .event => ({} : BuildEvent)

def MessageKind.absorb : (kind : MessageKind) → kind.Value → Field → Except Fault kind.Value
  | .setId => SetId.absorb
  | .label => absorbLabel
  | .file => File.absorb
  | .namedSet => NamedSet.absorb
  | .outputGroup => OutputGroup.absorb
  | .completion => Completion.absorb
  | .eventId => EventId.absorb
  | .event => BuildEvent.absorb

def MessageKind.decode (kind : MessageKind) : Bytes → Except Fault kind.Value :=
  foldFields kind.absorb kind.empty

def ContentKind.Value : ContentKind → Type
  | .text => String
  | .message kind => kind.Value

def ContentKind.decode : (expected : ContentKind) → Bytes → Except Fault expected.Value
  | .text => decodeText
  | .message kind => kind.decode

/-- The varint fields that a message of a kind takes a flag from, by their numbers. -/
def MessageKind.HoldsFlag : MessageKind → Nat → Prop
  | .outputGroup, number => number = 4
  | .completion, number => number = 1
  | .event, number => number = 20
  | _, _ => False

/-- Fields whose number a message of a kind does not know under their wire type. -/
def MessageKind.Ignores (kind : MessageKind) : Field → Prop
  | ⟨number, .varint _⟩ => ¬kind.HoldsFlag number
  | ⟨number, .delimited _⟩ => kind.content? number = none
  | ⟨_, .fixed64 _⟩ => True
  | ⟨_, .fixed32 _⟩ => True

theorem absorb_of_ignores {kind : MessageKind} {field : Field} (ignored : kind.Ignores field)
    (value : kind.Value) : kind.absorb value field = .ok value := by
  -- Every branch of a reader but the last is for a field that its kind does not ignore.
  cases kind with
  | setId | label | file | namedSet | outputGroup | completion | eventId | event =>
    simp only [MessageKind.absorb, SetId.absorb, absorbLabel, File.absorb, NamedSet.absorb,
      OutputGroup.absorb, Completion.absorb, EventId.absorb, BuildEvent.absorb]
    split
    all_goals first | rfl | cases ignored | exact absurd rfl ignored

/-- A component of what a message is read into. Each of its fields replaces a single component and
adds to the end of a repeated one. -/
inductive Slot (σ : Type) : Type 1 where
  | single {α : Type} (get : σ → α)
  | repeated {α : Type} (get : σ → List α)

def MessageKind.slots : (kind : MessageKind) → List (Nat × Slot kind.Value)
  | .setId => [(1, .single fun id : SetId => id)]
  | .label => [(1, .single fun label : String => label)]
  | .file => [(1, .single File.name), (2, .single File.uri), (4, .repeated File.directories)]
  | .namedSet => [(1, .repeated NamedSet.files), (2, .repeated NamedSet.children)]
  | .outputGroup =>
    [(1, .single OutputGroup.name), (3, .repeated OutputGroup.fileSets),
      (4, .single OutputGroup.incomplete)]
  | .completion => [(1, .single Completion.success), (2, .repeated Completion.outputGroups)]
  | .eventId => [(5, .single EventId.targetCompleted), (13, .single EventId.namedSet)]
  | .event =>
    [(1, .single BuildEvent.id), (8, .single BuildEvent.completion),
      (15, .single BuildEvent.definition), (20, .single BuildEvent.lastMessage)]

def Slot.Changes {σ : Type} (given : Prop) (value next other otherNext : σ) : Slot σ → Prop
  | single get =>
    (given → get next = get otherNext) ∧
      (¬given → get next = get value ∧ get otherNext = get other)
  | repeated get =>
    ∃ added, get next = get value ++ added ∧ get otherNext = get other ++ added ∧
      (¬given → added = [])

/-- A change of values of a kind to the component of a number, the same in all of them. -/
def MessageKind.ChangesAt (kind : MessageKind) (number : Nat) (put : kind.Value → kind.Value) :
    Prop :=
  ∀ value other, ∀ entry ∈ kind.slots,
    entry.2.Changes (number = entry.1) value (put value) other (put other)

/-- What a known delimited field holds is put into the component of its number, whatever the value
is that absorbs it. -/
theorem exists_put {kind : MessageKind} {number : Nat} {expected : ContentKind}
    (known : kind.content? number = some expected) :
    ∃ put : expected.Value → kind.Value → kind.Value,
      (∀ value content, kind.absorb value ⟨number, .delimited content⟩ =
        (expected.decode content).map fun item => put item value) ∧
      ∀ item, kind.ChangesAt number (put item) := by
  unfold MessageKind.content? at known
  -- One case for each known field, kind by kind.
  split at known <;> cases known
  next =>
    refine ⟨fun (id : SetId) _ => id, fun _ content => ?_, fun _ _ _ => ?_⟩
    · exact (congrFun Except.map_id (decodeText content)).symm
    · simp [MessageKind.slots, Slot.Changes]
  next =>
    refine ⟨fun (label : String) _ => label, fun _ content => ?_, fun _ _ _ => ?_⟩
    · exact (congrFun Except.map_id (decodeText content)).symm
    · simp [MessageKind.slots, Slot.Changes]
  next =>
    refine ⟨fun (name : String) (file : File) => { file with name := name }, fun _ _ => rfl,
      fun (_ : String) _ _ => ?_⟩
    simp [MessageKind.slots, Slot.Changes]
  next =>
    refine ⟨fun (uri : String) (file : File) => { file with uri := uri }, fun _ _ => rfl,
      fun (_ : String) _ _ => ?_⟩
    simp [MessageKind.slots, Slot.Changes]
  next =>
    refine ⟨fun (directory : String) (file : File) =>
        { file with directories := file.directories ++ [directory] }, fun _ _ => rfl,
      fun (_ : String) _ _ => ?_⟩
    simp [MessageKind.slots, Slot.Changes]
  next =>
    refine ⟨fun (file : File) (set : NamedSet) => { set with files := set.files ++ [file] },
      fun _ _ => rfl, fun (_ : File) _ _ => ?_⟩
    simp [MessageKind.slots, Slot.Changes]
  next =>
    refine ⟨fun (id : SetId) (set : NamedSet) => { set with children := set.children ++ [id] },
      fun _ _ => rfl, fun (_ : SetId) _ _ => ?_⟩
    simp [MessageKind.slots, Slot.Changes]
  next =>
    refine ⟨fun (name : String) (group : OutputGroup) => { group with name := name },
      fun _ _ => rfl, fun (_ : String) _ _ => ?_⟩
    simp [MessageKind.slots, Slot.Changes]
  next =>
    refine ⟨fun (id : SetId) (group : OutputGroup) =>
        { group with fileSets := group.fileSets ++ [id] }, fun _ _ => rfl,
      fun (_ : SetId) _ _ => ?_⟩
    simp [MessageKind.slots, Slot.Changes]
  next =>
    refine ⟨fun (group : OutputGroup) (completion : Completion) =>
        { completion with outputGroups := completion.outputGroups ++ [group] }, fun _ _ => rfl,
      fun (_ : OutputGroup) _ _ => ?_⟩
    simp [MessageKind.slots, Slot.Changes]
  next =>
    refine ⟨fun (label : String) (id : EventId) => { id with targetCompleted := some label },
      fun _ _ => rfl, fun (_ : String) _ _ => ?_⟩
    simp [MessageKind.slots, Slot.Changes]
  next =>
    refine ⟨fun (set : SetId) (id : EventId) => { id with namedSet := some set }, fun _ _ => rfl,
      fun (_ : SetId) _ _ => ?_⟩
    simp [MessageKind.slots, Slot.Changes]
  next =>
    refine ⟨fun (id : EventId) (event : BuildEvent) => { event with id := id }, fun _ _ => rfl,
      fun (_ : EventId) _ _ => ?_⟩
    simp [MessageKind.slots, Slot.Changes]
  next =>
    refine ⟨fun (completion : Completion) (event : BuildEvent) =>
        { event with completion := some completion }, fun _ _ => rfl,
      fun (_ : Completion) _ _ => ?_⟩
    simp [MessageKind.slots, Slot.Changes]
  next =>
    refine ⟨fun (set : NamedSet) (event : BuildEvent) => { event with definition := some set },
      fun _ _ => rfl, fun (_ : NamedSet) _ _ => ?_⟩
    simp [MessageKind.slots, Slot.Changes]

theorem exists_putFlag {kind : MessageKind} {number : Nat} (known : kind.HoldsFlag number)
    (varint : Nat) :
    ∃ put : kind.Value → kind.Value,
      (∀ value, kind.absorb value ⟨number, .varint varint⟩ = .ok (put value)) ∧
      kind.ChangesAt number put := by
  cases kind with
  | setId | label | file | namedSet | eventId => cases known
  | outputGroup =>
    cases known
    refine ⟨fun (group : OutputGroup) => { group with incomplete := varint ≠ 0 }, fun _ => rfl,
      fun _ _ => ?_⟩
    simp [MessageKind.slots, Slot.Changes]
  | completion =>
    cases known
    refine ⟨fun (completion : Completion) => { completion with success := varint ≠ 0 },
      fun _ => rfl, fun _ _ => ?_⟩
    simp [MessageKind.slots, Slot.Changes]
  | event =>
    cases known
    refine ⟨fun (event : BuildEvent) => { event with lastMessage := varint ≠ 0 }, fun _ => rfl,
      fun _ _ => ?_⟩
    simp [MessageKind.slots, Slot.Changes]

theorem exists_absorb_varint (kind : MessageKind) (value : kind.Value) (number varint : Nat) :
    ∃ next, kind.absorb value ⟨number, .varint varint⟩ = .ok next := by
  by_cases flag : kind.HoldsFlag number
  · obtain ⟨put, absorbs, -⟩ := exists_putFlag flag varint
    exact ⟨put value, absorbs value⟩
  · have ignored : kind.Ignores ⟨number, .varint varint⟩ := flag
    exact ⟨value, absorb_of_ignores ignored value⟩

end GoMetadata
