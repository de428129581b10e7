import GoMetadata.BuildEvent
import GoMetadata.Proofs.Wire.Message

/-!
The fields that each message of a build event is written with, in order. The bytes of a message are
these fields as long as its lengths fit into varints.
-/

namespace GoMetadata

open Wire

/-- Bytes that are the given fields unless they are too long to be read. -/
def Writes (bytes : Bytes) (fields : List Field) : Prop :=
  bytes.length < 2 ^ 70 → IsMessage bytes fields

theorem Writes.append {first second : Bytes} {fields others : List Field}
    (writes : Writes first fields) (next : Writes second others) :
    Writes (first ++ second) (fields ++ others) := by
  intro small
  rw [List.length_append] at small
  exact (writes (by omega)).append (next (by omega))

theorem Writes.length_content_lt {bytes content : Bytes} {number : Nat} {fields : List Field}
    (writes : Writes bytes fields) (small : bytes.length < 2 ^ 70)
    (member : ⟨number, .delimited content⟩ ∈ fields) : content.length < 2 ^ 70 :=
  Nat.lt_trans ((writes small).length_content_lt member) small

theorem writes_flatMap {α : Type} {bytes : α → Bytes} {field : α → Field}
    (each : ∀ item, Writes (bytes item) [field item]) (items : List α) :
    Writes (items.flatMap bytes) (items.map field) := by
  induction items with
  | nil => exact fun _ => .nil
  | cons item items ih =>
    rw [List.flatMap_cons]
    exact (each item).append ih

def textField (number : Nat) (text : String) : Field :=
  ⟨number, .delimited (Utf8.encode text)⟩

def flagFields (number : Nat) (flag : Bool) : List Field :=
  if flag then [⟨number, .varint 1⟩] else []

/-- The field of a part that may be absent; a part that is there has its field even if empty. -/
def partFields {α : Type} (number : Nat) (encode : α → Bytes) : Option α → List Field
  | none => []
  | some part => [⟨number, .delimited (encode part)⟩]

section Numbers

variable {number : Nat} (positive : number ≠ 0) (bounded : number < 2 ^ 60)

include positive bounded

theorem writes_nested (content : Bytes) :
    Writes (encodeNested number content) [⟨number, .delimited content⟩] := by
  intro small
  refine (isField_encode positive bounded ?_).isMessage
  simp only [encodeNested, Field.encode, Payload.encode, encodeDelimited, List.length_append]
    at small
  omega

theorem writes_string (text : String) : Writes (encodeString number text) [textField number text] :=
  writes_nested positive bounded _

theorem writes_flag (flag : Bool) : Writes (encodeFlag number flag) (flagFields number flag) := by
  intro _
  cases flag with
  | false => exact .nil
  | true => exact (isField_encode positive bounded (by decide : 1 < 2 ^ 70)).isMessage

end Numbers

def SetId.fields (id : SetId) : List Field :=
  [textField 1 id]

def File.fields (file : File) : List Field :=
  [textField 1 file.name] ++ (if file.uri = "" then [] else [textField 2 file.uri]) ++
    file.directories.map (textField 4)

def NamedSet.fields (set : NamedSet) : List Field :=
  set.files.map (fun file => ⟨1, .delimited file.encode⟩) ++
    set.children.map (fun id => ⟨2, .delimited (SetId.encode id)⟩)

def OutputGroup.fields (group : OutputGroup) : List Field :=
  [textField 1 group.name] ++
    group.fileSets.map (fun id => ⟨3, .delimited (SetId.encode id)⟩) ++
    flagFields 4 group.incomplete

def Completion.fields (completion : Completion) : List Field :=
  flagFields 1 completion.success ++
    completion.outputGroups.map (fun group => ⟨2, .delimited group.encode⟩)

def EventId.fields (id : EventId) : List Field :=
  partFields 5 (encodeString 1) id.targetCompleted ++ partFields 13 SetId.encode id.namedSet

def BuildEvent.fields (event : BuildEvent) : List Field :=
  [⟨1, .delimited event.id.encode⟩] ++ partFields 8 Completion.encode event.completion ++
    partFields 15 NamedSet.encode event.definition ++ flagFields 20 event.lastMessage

theorem SetId.writes (id : SetId) : Writes (SetId.encode id) (SetId.fields id) :=
  writes_string (by decide) (by decide) id

theorem File.writes (file : File) : Writes file.encode file.fields := by
  refine ((writes_string (by decide) (by decide) _).append ?_).append
    (writes_flatMap (writes_string (by decide) (by decide)) _)
  split
  · exact fun _ => .nil
  · exact writes_string (by decide) (by decide) _

theorem NamedSet.writes (set : NamedSet) : Writes set.encode set.fields :=
  (writes_flatMap (fun _ => writes_nested (by decide) (by decide) _) _).append
    (writes_flatMap (fun _ => writes_nested (by decide) (by decide) _) _)

theorem OutputGroup.writes (group : OutputGroup) : Writes group.encode group.fields :=
  ((writes_string (by decide) (by decide) _).append
    (writes_flatMap (fun _ => writes_nested (by decide) (by decide) _) _)).append
    (writes_flag (by decide) (by decide) _)

theorem Completion.writes (completion : Completion) : Writes completion.encode completion.fields :=
  (writes_flag (by decide) (by decide) _).append
    (writes_flatMap (fun _ => writes_nested (by decide) (by decide) _) _)

theorem EventId.writes (id : EventId) : Writes id.encode id.fields := by
  refine Writes.append ?_ ?_
  · cases id.targetCompleted with
    | none => exact fun _ => .nil
    | some label => exact writes_nested (by decide) (by decide) _
  · cases id.namedSet with
    | none => exact fun _ => .nil
    | some set => exact writes_nested (by decide) (by decide) _

theorem BuildEvent.writes (event : BuildEvent) : Writes event.encode event.fields := by
  refine (((writes_nested (by decide) (by decide) _).append ?_).append ?_).append
    (writes_flag (by decide) (by decide) _)
  · cases event.completion with
    | none => exact fun _ => .nil
    | some completion => exact writes_nested (by decide) (by decide) _
  · cases event.definition with
    | none => exact fun _ => .nil
    | some set => exact writes_nested (by decide) (by decide) _

end GoMetadata
