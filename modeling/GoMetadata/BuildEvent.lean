import GoMetadata.Error
import GoMetadata.Wire

/-!
Build events, as far as the files of a build depend on them: which targets completed with which
output groups, and which files and further sets each named set of files holds. They come as messages
in the wire format, in logs.
-/

namespace GoMetadata

open Wire

abbrev SetId := String

structure File where
  name : String := ""
  directories : List String := []
  uri : String := ""
  deriving DecidableEq, Repr, Inhabited

def File.path (file : File) : String :=
  "/".intercalate (file.directories ++ [file.name])

structure NamedSet where
  files : List File := []
  children : List SetId := []
  deriving DecidableEq, Repr, Inhabited

structure OutputGroup where
  name : String := ""
  fileSets : List SetId := []
  incomplete : Bool := false
  deriving DecidableEq, Repr, Inhabited

structure Completion where
  success : Bool := false
  outputGroups : List OutputGroup := []
  deriving DecidableEq, Repr, Inhabited

structure EventId where
  targetCompleted : Option String := none
  namedSet : Option SetId := none
  deriving DecidableEq, Repr, Inhabited

structure BuildEvent where
  id : EventId := {}
  lastMessage : Bool := false
  definition : Option NamedSet := none
  completion : Option Completion := none
  deriving DecidableEq, Repr, Inhabited

/-!
Writing. False flags, an empty address and absent parts are left out; names and the identity of an
event are always written.
-/

def encodeNested (number : Nat) (content : Bytes) : Bytes :=
  Field.encode ⟨number, .delimited content⟩

def encodeString (number : Nat) (text : String) : Bytes :=
  encodeNested number (Utf8.encode text)

def encodeFlag (number : Nat) (flag : Bool) : Bytes :=
  if flag then Field.encode ⟨number, .varint 1⟩ else []

def SetId.encode (id : SetId) : Bytes :=
  encodeString 1 id

def File.encode (file : File) : Bytes :=
  encodeString 1 file.name ++ (if file.uri = "" then [] else encodeString 2 file.uri) ++
    file.directories.flatMap (encodeString 4)

def NamedSet.encode (set : NamedSet) : Bytes :=
  set.files.flatMap (fun file => encodeNested 1 file.encode) ++
    set.children.flatMap (fun id => encodeNested 2 (SetId.encode id))

def OutputGroup.encode (group : OutputGroup) : Bytes :=
  encodeString 1 group.name ++
    group.fileSets.flatMap (fun id => encodeNested 3 (SetId.encode id)) ++
    encodeFlag 4 group.incomplete

def Completion.encode (completion : Completion) : Bytes :=
  encodeFlag 1 completion.success ++
    completion.outputGroups.flatMap (fun group => encodeNested 2 group.encode)

def EventId.encode (id : EventId) : Bytes :=
  (match id.targetCompleted with
    | none => []
    | some label => encodeNested 5 (encodeString 1 label)) ++
  (match id.namedSet with
    | none => []
    | some set => encodeNested 13 (SetId.encode set))

def BuildEvent.encode (event : BuildEvent) : Bytes :=
  encodeNested 1 event.id.encode ++
  (match event.completion with
    | none => []
    | some completion => encodeNested 8 completion.encode) ++
  (match event.definition with
    | none => []
    | some set => encodeNested 15 set.encode) ++
  encodeFlag 20 event.lastMessage

/-!
Reading. Each message is read by what one field does to the value built so far; a field that the
message does not know, or knows under another wire type, leaves the value as it is.
-/

def SetId.absorb (id : SetId) : Field → Except Fault SetId
  | ⟨1, .delimited content⟩ => decodeText content
  | _ => .ok id

def SetId.decode : Bytes → Except Fault SetId :=
  foldFields SetId.absorb ""

def absorbLabel (label : String) : Field → Except Fault String
  | ⟨1, .delimited content⟩ => decodeText content
  | _ => .ok label

def decodeLabel : Bytes → Except Fault String :=
  foldFields absorbLabel ""

def File.absorb (file : File) : Field → Except Fault File
  | ⟨1, .delimited content⟩ => do return { file with name := ← decodeText content }
  | ⟨2, .delimited content⟩ => do return { file with uri := ← decodeText content }
  | ⟨4, .delimited content⟩ => do
    return { file with directories := file.directories ++ [← decodeText content] }
  | _ => .ok file

def File.decode : Bytes → Except Fault File :=
  foldFields File.absorb {}

def NamedSet.absorb (set : NamedSet) : Field → Except Fault NamedSet
  | ⟨1, .delimited content⟩ => do
    return { set with files := set.files ++ [← File.decode content] }
  | ⟨2, .delimited content⟩ => do
    return { set with children := set.children ++ [← SetId.decode content] }
  | _ => .ok set

def NamedSet.decode : Bytes → Except Fault NamedSet :=
  foldFields NamedSet.absorb {}

def OutputGroup.absorb (group : OutputGroup) : Field → Except Fault OutputGroup
  | ⟨1, .delimited content⟩ => do return { group with name := ← decodeText content }
  | ⟨3, .delimited content⟩ => do
    return { group with fileSets := group.fileSets ++ [← SetId.decode content] }
  | ⟨4, .varint value⟩ => .ok { group with incomplete := value ≠ 0 }
  | _ => .ok group

def OutputGroup.decode : Bytes → Except Fault OutputGroup :=
  foldFields OutputGroup.absorb {}

def Completion.absorb (completion : Completion) : Field → Except Fault Completion
  | ⟨1, .varint value⟩ => .ok { completion with success := value ≠ 0 }
  | ⟨2, .delimited content⟩ => do
    return { completion with
      outputGroups := completion.outputGroups ++ [← OutputGroup.decode content] }
  | _ => .ok completion

def Completion.decode : Bytes → Except Fault Completion :=
  foldFields Completion.absorb {}

def EventId.absorb (id : EventId) : Field → Except Fault EventId
  | ⟨5, .delimited content⟩ => do
    return { id with targetCompleted := some (← decodeLabel content) }
  | ⟨13, .delimited content⟩ => do return { id with namedSet := some (← SetId.decode content) }
  | _ => .ok id

def EventId.decode : Bytes → Except Fault EventId :=
  foldFields EventId.absorb {}

def BuildEvent.absorb (event : BuildEvent) : Field → Except Fault BuildEvent
  | ⟨1, .delimited content⟩ => do return { event with id := ← EventId.decode content }
  | ⟨8, .delimited content⟩ => do
    return { event with completion := some (← Completion.decode content) }
  | ⟨15, .delimited content⟩ => do
    return { event with definition := some (← NamedSet.decode content) }
  | ⟨20, .varint value⟩ => .ok { event with lastMessage := value ≠ 0 }
  | _ => .ok event

def BuildEvent.decode : Bytes → Except Fault BuildEvent :=
  foldFields BuildEvent.absorb {}

/-!
Logs: every event after its length, up to and including the first that says that it is the last.
What follows the last message is not looked at.
-/

def encodeLog (events : List BuildEvent) : Bytes :=
  events.flatMap fun event => encodeDelimited event.encode

inductive LogFault where
  | ended
  | malformed (fault : Fault)
  deriving DecidableEq, Repr

def LogFault.reason : LogFault → String
  | ended => "stream ended before the last message"
  | malformed fault => fault.message

def LogFault.error (fault : LogFault) (offset : Nat) : DriverError :=
  .brokenLog fault.reason (some offset)

def readEvent (bytes : Bytes) : Except LogFault (BuildEvent × Bytes) :=
  if bytes = [] then .error .ended
  else
    match readDelimited bytes with
    | .error fault => .error (.malformed fault)
    | .ok (content, rest) =>
      match BuildEvent.decode content with
      | .error fault => .error (.malformed fault)
      | .ok event => .ok (event, rest)

theorem length_lt_of_readEvent {bytes rest : Bytes} {event : BuildEvent}
    (read : readEvent bytes = .ok (event, rest)) : rest.length < bytes.length := by
  unfold readEvent at read
  split at read
  · simp at read
  · split at read
    · simp at read
    next content tail framed =>
      split at read
      · simp at read
      · cases read
        exact length_lt_of_readDelimited framed

/-- The events that a log yields and, unless the last message is among them, where and why it
breaks. -/
structure LogContents where
  events : List BuildEvent
  broken : Option (LogFault × Nat)
  deriving DecidableEq, Repr

def readLogFrom (offset : Nat) (bytes : Bytes) : LogContents :=
  match _read : readEvent bytes with
  | .error fault => ⟨[], some (fault, offset)⟩
  | .ok (event, rest) =>
    if event.lastMessage then ⟨[event], none⟩
    else
      let contents := readLogFrom (offset + (bytes.length - rest.length)) rest
      ⟨event :: contents.events, contents.broken⟩
termination_by bytes.length
decreasing_by exact length_lt_of_readEvent _read

def readLog (bytes : Bytes) : LogContents :=
  readLogFrom 0 bytes

def parseBuildEvent (bytes : Bytes) : Except DriverError BuildEvent :=
  (BuildEvent.decode bytes).mapError fun fault => .brokenLog fault.message none

end GoMetadata
