import GoMetadata.Error
import GoMetadata.FileTree
import GoMetadata.Json.Basic
import GoMetadata.Json.Reader
import GoMetadata.Label
import GoMetadata.Text.Basic

/-!
Package descriptors: what a build writes about one Go package, how descriptors are linked to a graph
of packages, and how they are loaded from files. The imports map import paths to the ids of
packages. In JSON a field that has its default is left out, and a package error is written in full.
-/

namespace GoMetadata

def listError : Int := 1

structure PackageError where
  position : String := ""
  message : String := ""
  kind : Int := 0
  deriving DecidableEq, Repr, Inhabited

structure Descriptor where
  id : String
  name : String := ""
  packagePath : String := ""
  errors : List PackageError := []
  goFiles : List String := []
  compiledGoFiles : List String := []
  otherFiles : List String := []
  embedPatterns : List String := []
  embedFiles : List String := []
  ignoredFiles : List String := []
  exportFile : String := ""
  imports : List (String × String) := []
  standard : Bool := false
  deriving DecidableEq, Repr, Inhabited

section

open Checked

namespace PackageError

def check : Json → Checked PackageError
  | .object entries =>
    PackageError.mk
      <$> field ["Pos", "pos"] (valid "") string entries
      <*> field ["Msg", "msg"] (valid "") string entries
      <*> field ["Kind", "kind"] (valid 0) integer entries
  | _ => fault

def toJson (error : PackageError) : Json :=
  .object [("Pos", .text error.position), ("Msg", .text error.message), ("Kind", .int error.kind)]

end PackageError

namespace Descriptor

def texts : Json → Checked (List String) :=
  orNull [] (list string)

/-- Reads a descriptor. A field goes by its name in JSON or, where that is missing, by the name in
lower case. -/
def check : Json → Checked Descriptor
  | .object entries =>
    Descriptor.mk
      <$> field ["ID", "id"] fault string entries
      <*> field ["Name", "name"] (valid "") string entries
      <*> field ["PkgPath", "pkg_path"] (valid "") string entries
      <*> field ["Errors", "errors"] (valid []) (orNull [] (list PackageError.check)) entries
      <*> field ["GoFiles", "go_files"] (valid []) texts entries
      <*> field ["CompiledGoFiles", "compiled_go_files"] (valid []) texts entries
      <*> field ["OtherFiles", "other_files"] (valid []) texts entries
      <*> field ["EmbedPatterns", "embed_patterns"] (valid []) texts entries
      <*> field ["EmbedFiles", "embed_files"] (valid []) texts entries
      <*> field ["IgnoredFiles", "ignored_files"] (valid []) texts entries
      <*> field ["ExportFile", "export_file"] (valid "") string entries
      <*> field ["Imports", "imports"] (valid []) (orNull [] (dictionary string)) entries
      <*> field ["Standard", "standard"] (valid false) flag entries
  | _ => fault

def textEntry (key value : String) : List (String × Json) :=
  if value = "" then [] else [(key, .text value)]

def textsEntry (key : String) (values : List String) : List (String × Json) :=
  if values = [] then [] else [(key, .array (values.map .text))]

def toJson (descriptor : Descriptor) : Json :=
  .object
    ([("ID", .text descriptor.id)]
      ++ textEntry "Name" descriptor.name
      ++ textEntry "PkgPath" descriptor.packagePath
      ++ (if descriptor.errors = [] then []
          else [("Errors", .array (descriptor.errors.map PackageError.toJson))])
      ++ textsEntry "GoFiles" descriptor.goFiles
      ++ textsEntry "CompiledGoFiles" descriptor.compiledGoFiles
      ++ textsEntry "OtherFiles" descriptor.otherFiles
      ++ textsEntry "EmbedPatterns" descriptor.embedPatterns
      ++ textsEntry "EmbedFiles" descriptor.embedFiles
      ++ textsEntry "IgnoredFiles" descriptor.ignoredFiles
      ++ textEntry "ExportFile" descriptor.exportFile
      ++ (if descriptor.imports = [] then []
          else [("Imports", .object (descriptor.imports.map fun (path, id) => (path, .text id)))])
      ++ (if descriptor.standard then [("Standard", .bool true)] else []))

end Descriptor

end

/-!
Packages linked by their imports. Of several descriptors with one id the first stands. An import
names a package by its id, which may belong to any other package of the graph or to none; an import
of the latter kind is an error of the importing package.
-/

structure PackageGraph where
  packages : List Descriptor := []
  deriving DecidableEq, Repr, Inhabited

namespace Descriptor

def firsts (descriptors : List Descriptor) : List Descriptor :=
  descriptors.foldl
    (fun kept descriptor =>
      if kept.any (·.id == descriptor.id) then kept else kept ++ [descriptor]) []

def sortedImports (descriptor : Descriptor) : List (String × String) :=
  descriptor.imports.mergeSort fun left right => decide (left.1 ≤ right.1)

def missingImport (path id : String) : PackageError :=
  { message := "could not import " ++ path ++ " (no metadata for " ++ id ++ ")", kind := listError }

def missingImports (known : List String) (descriptor : Descriptor) : List PackageError :=
  (descriptor.sortedImports.filter fun entry => entry.2 ∉ known).map fun entry =>
    missingImport entry.1 entry.2

def link (known : List String) (descriptor : Descriptor) : Descriptor :=
  { descriptor with errors := descriptor.errors ++ descriptor.missingImports known }

end Descriptor

namespace PackageGraph

def ofDescriptors (descriptors : List Descriptor) : PackageGraph :=
  let kept := Descriptor.firsts descriptors
  ⟨kept.map (Descriptor.link (kept.map (·.id)))⟩

def ids (graph : PackageGraph) : List String :=
  graph.packages.map (·.id)

def find? (graph : PackageGraph) (id : String) : Option Descriptor :=
  graph.packages.find? (·.id == id)

def sortedPackages (graph : PackageGraph) : List Descriptor :=
  (Text.sortDistinct graph.ids).filterMap graph.find?

def selectRoots (graph : PackageGraph) (targets : List String) : List String :=
  Text.sortDistinct (graph.ids.filter fun id => targets.any (Label.selects · id))

end PackageGraph

/-!
Loading from files. Of the files of a build those with the right ending hold descriptors; each must
be readable and valid, also one whose package is known already.
-/

def hasEnding (ending text : String) : Bool :=
  ending.toList.isSuffixOf text.toList

def descriptorFiles (names : List String) : List String :=
  names.filter (hasEnding ".json")

namespace Descriptor

def unusable (path : Path) (reason : String) : Failure :=
  .reported (.descriptorUnusable path.text reason)

def ofJson (path : Path) : Json → Except Failure Descriptor
  | .object entries =>
    match check (.object entries) with
    | .valid descriptor => .ok descriptor
    | .invalid faults => .error (unusable path (Checked.summary faults "PackageDescriptor"))
  | _ => .error (unusable path "expected a JSON object")

def ofChars (path : Path) (text : List Char) : Except Failure Descriptor :=
  match Json.parse text with
  | .error (.numeralTooLong digits) => .error (.unreported (.numeralTooLong digits))
  | .error (.malformed complaint index) =>
    .error (unusable path (Json.complaintMessage text complaint index))
  | .ok value => ofJson path value

def ofFile (path : Path) : Except Refusal Bytes → Except Failure Descriptor
  | .error refusal =>
    .error (refusal.failure fun error => .descriptorUnusable path.text error.message)
  | .ok bytes =>
    match Utf8.decode bytes with
    | .error fault => .error (unusable path fault.message)
    | .ok text => ofChars path (Text.unifyLineEnds text.toList)

/-- Loads the descriptors among some files, which `root` is the home of, and keeps the first one of
each id. -/
def loadAll {m : Type → Type} [Monad m] (load : Path → m Descriptor) (root : Path)
    (names : List String) : m (List Descriptor) := do
  return firsts (← (descriptorFiles names).mapM fun name => load (root.join (.ofText name)))

def loadFrom (read : Path → Except Refusal Bytes) (root : Path) (names : List String) :
    Except Failure (List Descriptor) :=
  loadAll (fun path => ofFile path (read path)) root names

end Descriptor

end GoMetadata
