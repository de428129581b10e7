import GoMetadata.Error

/-!
Labels of build targets as text. A label names a package and, after the last colon, a target in it;
a label without a colon names the target called like the last part of its package. The main
repository may be written in three ways, which mean the same.
-/

namespace GoMetadata

namespace Label

def splitLast? (separator : Char) : List Char → Option (List Char × List Char)
  | [] => none
  | c :: rest =>
    match splitLast? separator rest with
    | some (before, after) => some (c :: before, after)
    | none => if c = separator then some ([], rest) else none

def baseName (text : List Char) : List Char :=
  match splitLast? '/' text with
  | some (_, after) => after
  | none => text

def normalize (label : List Char) : List Char :=
  if ['@', '@', '/', '/'].isPrefixOf label then label.drop 2
  else if ['@', '/', '/'].isPrefixOf label then label.drop 1
  else label

def split (label : List Char) : List Char × List Char :=
  match splitLast? ':' label with
  | some parts => parts
  | none => (label, baseName label)

def isWildcard (name : List Char) : Bool :=
  name == "all".toList || name == "*".toList || name == "all-targets".toList

def recursiveEnding : List Char := "/...".toList

def selectsChars (target id : List Char) : Bool :=
  let target := normalize target
  let id := normalize id
  id == target ||
    let (package, name) := split id
    let (wanted, wantedName) := split target
    if recursiveEnding.isSuffixOf wanted then
      let stem := wanted.take (wanted.length - recursiveEnding.length)
      let base := (stem.reverse.dropWhile (· == '/')).reverse
      package == base || (base ++ ['/']).isPrefixOf package
    else if isWildcard wantedName then package == wanted
    else package == wanted && name == wantedName

def selects (target id : String) : Bool :=
  selectsChars target.toList id.toList

/-- The package of a source file's label. The file's own name, if it ends the label, is taken off
whole, for it may hold a colon. -/
def packageOf (label sourceFile : List Char) : List Char :=
  let base := baseName sourceFile
  if base ≠ [] ∧ (':' :: base).isSuffixOf label then label.take (label.length - base.length - 1)
  else
    match splitLast? ':' label with
    | some (package, _) => package
    | none => label

def package (label sourceFile : String) : String :=
  String.ofList (packageOf label.toList sourceFile.toList)

end Label

/-!
The positional arguments of a run. An argument is a label of a target, the path of a source file, or
a pattern; patterns are known by their mark only so that they can be rejected.
-/

inductive Identifier where
  | label (text : String)
  | file (path : String)
  | pattern (expression : String)
  deriving DecidableEq, Repr

namespace Identifier

def fileMark : String := "file="

def patternMark : String := "query="

def after? (mark text : String) : Option String :=
  if mark.toList.isPrefixOf text.toList then
    some (String.ofList (text.toList.drop mark.toList.length))
  else none

def ofText (text : String) : Identifier :=
  match after? fileMark text with
  | some path => file path
  | none =>
    match after? patternMark text with
    | some expression => pattern expression
    | none => label text

def text : Identifier → String
  | label text => text
  | file path => fileMark ++ path
  | pattern expression => patternMark ++ expression

theorem append_of_after? {mark text rest : String} (found : after? mark text = some rest) :
    mark ++ rest = text := by
  unfold after? at found
  split at found
  next marked =>
    obtain ⟨more, same⟩ := List.isPrefixOf_iff_prefix.1 marked
    cases found
    rw [← String.toList_inj]
    simp [← same]
  next => cases found

theorem text_ofText (argument : String) : (ofText argument).text = argument := by
  unfold ofText
  split
  next found => exact append_of_after? found
  next =>
    split
    next found => exact append_of_after? found
    next => rfl

def ofArguments (arguments : List String) : Except DriverError (List Identifier) :=
  if arguments = [] then .error .noTargets else .ok (arguments.map ofText)

def isPattern : Identifier → Bool
  | pattern _ => true
  | _ => false

/-- The target of a source file, of which the label was asked for. One line must have come back; the
target stands for everything in the package of the file. -/
def targetOfAnswer (path answer : String) : Except DriverError String :=
  match Text.contentLines answer with
  | [line] => .ok (Label.package line path ++ ":all")
  | lines => .error (.ambiguousSource path lines "")

end Identifier

end GoMetadata
