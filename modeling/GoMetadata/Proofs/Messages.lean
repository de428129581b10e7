import GoMetadata.BuildEvent
import GoMetadata.Error
import GoMetadata.FileTree
import GoMetadata.Json.Basic
import GoMetadata.Json.Reader
import GoMetadata.Proofs.Text.Lines

/-!
Messages on one line. What a message quotes or counts cannot break it; what it takes over as it is
must be on one line itself. Of what a failed command said it takes over the last line that is not
blank.
-/

namespace GoMetadata

open Text (SingleLine)

theorem Utf8.Fault.singleLine_message (fault : Utf8.Fault) : SingleLine fault.message := by
  have cause : SingleLine fault.cause.text := by
    cases fault.cause <;> decide
  have first : ∀ c ∈ Text.hexText 2 fault.first.toNat, Text.isLineEnd c = false :=
    Text.isLineEnd_of_mem_hexText
  unfold Utf8.Fault.message
  split
  · simpa +decide using ⟨first, cause⟩
  · simpa +decide using cause

theorem Wire.Fault.singleLine_message (fault : Wire.Fault) : SingleLine fault.message := by
  cases fault with
  | unsupportedWireType wireType =>
    exact .append (by decide) (Text.singleLine_repr_nat wireType)
  | invalidText fault => exact fault.singleLine_message
  | _ => decide

theorem LogFault.singleLine_reason (fault : LogFault) : SingleLine fault.reason := by
  cases fault with
  | ended => decide
  | malformed fault => exact fault.singleLine_message

theorem Json.singleLine_complaintMessage (source : List Char) (complaint : Json.Complaint)
    (index : Nat) : SingleLine (Json.complaintMessage source complaint index) := by
  have said : SingleLine complaint.text := by
    cases complaint <;> decide
  simpa +decide [Json.complaintMessage] using said

theorem Json.singleLine_kind (value : Json) : SingleLine value.kind := by
  cases value <;> simp +decide [Json.kind]

theorem Checked.singleLine_summary (faults : Nat) {subject : String}
    (plain : SingleLine subject) : SingleLine (Checked.summary faults subject) := by
  unfold Checked.summary
  split
  · simpa +decide using plain
  · simpa +decide using plain

theorem SystemError.singleLine_numbered (number : Int) {text subject : String}
    (said : SingleLine text) (plain : SingleLine subject) :
    SingleLine (SystemError.numbered number text (some subject)).message := by
  simpa +decide [SystemError.message] using ⟨said, plain⟩

namespace FileTree

variable {subject : String} {error : SystemError}

theorem singleLine_of_follow (plain : SingleLine subject) {parts : List String}
    {trail : List FileTree} {place : FileTree}
    (failed : follow subject trail place parts = .error error) : SingleLine error.message := by
  induction parts generalizing trail place with
  | nil => cases failed
  | cons part parts ih =>
    cases place with
    | file content =>
      cases failed
      exact SystemError.singleLine_numbered _ (by decide) plain
    | directory entries =>
      unfold follow at failed
      dsimp only at failed
      split at failed
      · exact ih failed
      split at failed
      · cases trail with
        | nil => exact ih failed
        | cons above trail => exact ih failed
      split at failed
      · cases failed
        exact SystemError.singleLine_numbered _ (by decide) plain
      · split at failed
        · cases failed
          exact SystemError.singleLine_numbered _ (by decide) plain
        · exact ih failed

theorem singleLine_of_find {tree : FileTree} {cwd path : Path} (plain : SingleLine subject)
    (failed : tree.find cwd path subject = .error error) : SingleLine error.message := by
  unfold find findText at failed
  split at failed
  · cases failed
    exact SystemError.singleLine_numbered _ (by decide) plain
  · exact singleLine_of_follow plain failed

theorem singleLine_of_read {tree : FileTree} {cwd path : Path}
    (failed : tree.read cwd path = .error (.failed error)) : SingleLine error.message := by
  have plain := Text.singleLine_quoted path.text
  unfold FileTree.read at failed
  split at failed
  · cases failed
  split at failed
  next found =>
    cases failed
    exact singleLine_of_find plain found
  · cases failed
    exact SystemError.singleLine_numbered _ (by decide) plain
  · cases failed

end FileTree

namespace DriverError

/-- What a failed command adds to its message: the last line of what it said that is not blank, if
there is one. -/
inductive Adds (said : String) : String → Prop where
  | nothing (blank : ∀ line ∈ Text.splitLines said.toList, ∀ c ∈ line, Text.isBlank c = true) :
      Adds said ""
  | lastLine {before after : List (List Char)} {line : List Char}
      (split : Text.splitLines said.toList = before ++ line :: after)
      (content : ∃ c ∈ line, Text.isBlank c = false)
      (blank : ∀ line ∈ after, ∀ c ∈ line, Text.isBlank c = true) :
      Adds said (": " ++ String.ofList (Text.stripChars line))

theorem adds_lastLine (said : String) : Adds said (lastLine said) := by
  rw [lastLine, Text.contentLines_eq]
  rcases Text.kept_eq_nil_or_concat (Text.splitLines said.toList) with
    ⟨none, blank⟩ | ⟨before, line, after, split, content, blank, last⟩
  · rw [none]
    exact .nothing blank
  · rw [last, List.map_append, List.getLast?_append]
    exact .lastLine split content blank

theorem lastLine_strip (said : String) : lastLine (Text.strip said) = lastLine said := by
  rw [lastLine, lastLine, Text.contentLines_strip]

theorem singleLine_lastLine (said : String) : SingleLine (lastLine said) := by
  unfold lastLine
  split
  · decide
  next line last =>
    have plain : SingleLine line := Text.singleLine_of_mem_contentLines (List.mem_of_getLast? last)
    simpa +decide using plain

def IsPlain : DriverError → Prop
  | other text => SingleLine text
  | noTargets | unsupportedQuery _ => True
  | unsupportedFileKind _ suffix => SingleLine suffix
  | ambiguousSource _ _ reason => SingleLine reason
  | invocationFailed command _ _ => SingleLine command
  | brokenLog reason _ => SingleLine reason
  | targetFailed label => SingleLine label
  | malformedRequest reason => SingleLine reason
  | unencodableResponse reason => SingleLine reason
  | descriptorUnusable _ reason => SingleLine reason

theorem singleLine_message {error : DriverError} (plain : error.IsPlain) :
    SingleLine error.message := by
  cases error with
  | other text => exact plain
  | noTargets => decide
  | unsupportedQuery identifier => exact .append (by decide) (Text.singleLine_quoted identifier)
  | unsupportedFileKind path suffix =>
    exact .append (.append (.append (by decide) plain) (by decide)) (Text.singleLine_quoted path)
  | ambiguousSource path labels reason =>
    change SingleLine (if reason = "" then _ else _)
    split
    · simp +decide
    · exact .append (.append (.append (by decide) (Text.singleLine_quoted path)) (by decide)) plain
  | invocationFailed command exitCode diagnostics =>
    have added := singleLine_lastLine diagnostics
    cases exitCode with
    | none => exact .append (.append (.append (by decide) plain) (by decide)) added
    | some code =>
      have status : SingleLine (": exit status " ++ toString code) :=
        .append (by decide) (Text.singleLine_repr_int code)
      exact .append (.append (.append (by decide) plain) status) added
  | brokenLog reason offset =>
    have begun : SingleLine ("could not decode bazel build event file: " ++ reason) :=
      .append (by decide) plain
    cases offset with
    | none => exact .append begun (by decide)
    | some offset =>
      refine .append begun (.append (.append (by decide) ?_) (by decide))
      exact Text.singleLine_repr_int offset
  | targetFailed label => exact .append plain (by decide)
  | malformedRequest reason => exact .append (by decide) plain
  | unencodableResponse reason => exact .append (by decide) plain
  | descriptorUnusable path reason =>
    exact .append (.append (.append (by decide) (Text.singleLine_quoted path)) (by decide)) plain

end DriverError

end GoMetadata
