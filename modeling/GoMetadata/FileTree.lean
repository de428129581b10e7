import GoMetadata.Error
import GoMetadata.Json.Basic
import GoMetadata.Text.Basic

/-!
Paths, and the files of a workspace as a value. A path is read from text without looking at any
file: empty and single-dot parts are dropped, double dots are kept, and of several slashes in front
only two alone count as two.
-/

namespace GoMetadata

structure Path where
  /-- How many slashes stand in front: none of a relative path, else one or two. -/
  slashes : Nat := 0
  parts : List String := []
  deriving DecidableEq, Repr, Inhabited

namespace Path

def ofText (text : String) : Path :=
  let leading := (text.toList.takeWhile (· == '/')).length
  let parts := (Text.runs (· == '/') text.toList).map String.ofList
  ⟨if leading = 0 then 0 else if leading = 2 then 2 else 1,
    parts.filter (· ≠ ".")⟩

def isAbsolute (path : Path) : Bool :=
  path.slashes ≠ 0

def text (path : Path) : String :=
  if path.slashes = 0 ∧ path.parts = [] then "."
  else String.ofList (List.replicate path.slashes '/') ++ "/".intercalate path.parts

def join (base other : Path) : Path :=
  if other.isAbsolute then other else ⟨base.slashes, base.parts ++ other.parts⟩

def parent (path : Path) : Path :=
  { path with parts := path.parts.dropLast }

def hasNul (path : Path) : Bool :=
  path.parts.any fun part => part.toList.contains '\x00'

def collapseParts (parts : List String) : List String :=
  (parts.foldl (fun above part => if part = ".." then above.drop 1 else part :: above) []).reverse

def collapse (path : Path) : Path :=
  { path with parts := collapseParts path.parts }

end Path

/-!
Trees of files. A path is followed part by part from the root; the errors are those of the operating
system.
-/

inductive FileTree where
  | file (content : Bytes)
  | directory (entries : List (String × FileTree))
  deriving Repr, Inhabited

namespace FileTree

def putFile (content : Bytes) : List String → FileTree → FileTree
  | [], _ => .file content
  | part :: parts, tree =>
    let entries := match tree with
      | .directory entries => entries
      | .file _ => []
    let below := (entries.lookup part).getD (.directory [])
    .directory (putEntry part (putFile content parts below) entries)

def putDirectory : List String → FileTree → FileTree
  | [], .file _ => .directory []
  | [], tree => tree
  | part :: parts, tree =>
    let entries := match tree with
      | .directory entries => entries
      | .file _ => []
    let below := (entries.lookup part).getD (.directory [])
    .directory (putEntry part (putDirectory parts below) entries)

def maxNameLength : Nat := 255

def maxPathLength : Nat := 4095

/-- Follows parts of a path from a place, of which the trail leads back to the root. A dot leads
nowhere else, but only from a directory. -/
def follow (subject : String) (trail : List FileTree) (place : FileTree) :
    List String → Except SystemError FileTree
  | [] => .ok place
  | part :: parts =>
    match place with
    | .file _ => .error (.notDirectory subject)
    | .directory entries =>
      if part = "." then follow subject trail place parts
      else if part = ".." then
        match trail with
        | [] => follow subject [] place parts
        | above :: trail => follow subject trail above parts
      else if maxNameLength < part.utf8ByteSize then .error (.nameTooLong subject)
      else
        match entries.lookup part with
        | none => .error (.missing subject)
        | some below => follow subject (place :: trail) below parts

/-- The parts of a path text as they are followed. What stands before a dot or a last slash must be
a directory, so both count. -/
def partsToFollow (text : String) : List String :=
  (Text.runs (· == '/') text.toList).map String.ofList ++
    (if text.toList.getLast? = some '/' then ["."] else [])

/-- What a path text names, seen from the working directory. Errors speak of `subject`. -/
def findText (tree : FileTree) (cwd : Path) (text subject : String) :
    Except SystemError FileTree :=
  if maxPathLength < text.utf8ByteSize then .error (.nameTooLong subject)
  else
    let start := if text.toList.head? = some '/' then [] else cwd.parts
    follow subject [] tree (start ++ partsToFollow text)

def find (tree : FileTree) (cwd path : Path) (subject : String) : Except SystemError FileTree :=
  tree.findText cwd path.text subject

def entryError? (tree : FileTree) (cwd path : Path) (subject : String) : Option SystemError :=
  match tree.find cwd path subject with
  | .error error => some error
  | .ok (.file _) => some (.notDirectory subject)
  | .ok (.directory _) => none

def creationRefusal? (tree : FileTree) (cwd path : Path) : Option Refusal :=
  let subject := Text.quoted path.text
  if path.hasNul then some .nulCharacter
  else if maxPathLength < path.text.utf8ByteSize then some (.failed (.nameTooLong subject))
  else (tree.entryError? cwd path.parent subject).map .failed

def read (tree : FileTree) (cwd path : Path) : Except Refusal Bytes :=
  if path.hasNul then .error .nulCharacter
  else
    match tree.find cwd path (Text.quoted path.text) with
    | .error error => .error (.failed error)
    | .ok (.directory _) => .error (.failed (.isDirectory (Text.quoted path.text)))
    | .ok (.file content) => .ok content

end FileTree

end GoMetadata
