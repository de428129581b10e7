import GoMetadata.Decimal
import GoMetadata.Text.Basic
import GoMetadata.Text.Quoted
import GoMetadata.Text.Utf8

/-!
What can go wrong in a run. A driver error ends the run with one line of diagnosis; the few defects
that are no driver errors end it without one. The operating system refuses what it is asked to do
with errors of its own.
-/

namespace GoMetadata

inductive DriverError where
  | other (text : String)
  | noTargets
  | unsupportedQuery (identifier : String)
  | unsupportedFileKind (path suffix : String)
  /-- The source file has no single label. A reason that is not empty stands for the labels. -/
  | ambiguousSource (path : String) (labels : List String) (reason : String)
  | invocationFailed (command : String) (exitCode : Option Int) (diagnostics : String)
  | brokenLog (reason : String) (offset : Option Int)
  | targetFailed (label : String)
  | malformedRequest (reason : String)
  | unencodableResponse (reason : String)
  | descriptorUnusable (path reason : String)
  deriving DecidableEq, Repr

namespace DriverError

def lastLine (diagnostics : String) : String :=
  match (Text.contentLines diagnostics).getLast? with
  | none => ""
  | some line => ": " ++ line

def message : DriverError → String
  | other text => text
  | noTargets => "no targets specified"
  | unsupportedQuery identifier =>
    "don't know how to handle pattern query argument " ++ Text.quoted identifier
  | unsupportedFileKind path suffix =>
    "don't know how to handle non-" ++ suffix ++ " file " ++ Text.quoted path
  | ambiguousSource path labels reason =>
    if reason = "" then
      "mapping source file " ++ Text.quoted path ++ " to bazel label got " ++
        toString labels.length ++ " label(s), want 1: " ++ Text.quotedList labels
    else "unable to map source file " ++ Text.quoted path ++ " to bazel label: " ++ reason
  | invocationFailed command exitCode diagnostics =>
    "error running bazel " ++ command ++
      (match exitCode with
        | none => ""
        | some code => ": exit status " ++ toString code) ++
      lastLine diagnostics
  | brokenLog reason offset =>
    "could not decode bazel build event file: " ++ reason ++
      (match offset with
        | none => ""
        | some offset => " (at byte " ++ toString offset ++ ")")
  | targetFailed label => label ++ ": target did not build successfully"
  | malformedRequest reason => "could not unmarshal driver request: " ++ reason
  | unencodableResponse reason => "could not marshal driver response: " ++ reason
  | descriptorUnusable path reason =>
    "could not load package data file " ++ Text.quoted path ++ ": " ++ reason

end DriverError

inductive Defect where
  | numeralTooLong (digits : Nat)
  | integerTooLong
  | nulCharacter
  | undecodable (fault : Utf8.Fault)
  deriving DecidableEq, Repr

def Defect.message : Defect → String
  | numeralTooLong digits =>
    "Exceeds the limit (" ++ toString Numeral.maxDigits ++
      " digits) for integer string conversion: value has " ++ toString digits ++
      " digits; use sys.set_int_max_str_digits() to increase the limit"
  | integerTooLong =>
    "Exceeds the limit (" ++ toString Numeral.maxDigits ++
      " digits) for integer string conversion; use sys.set_int_max_str_digits() to increase " ++
      "the limit"
  | nulCharacter => "embedded null byte"
  | undecodable fault => fault.message

inductive Failure where
  | reported (error : DriverError)
  | unreported (defect : Defect)
  deriving DecidableEq, Repr

/-! Errors of the operating system -/

inductive SystemError where
  | plain (text : String)
  | numbered (number : Int) (text : String) (subject : Option String)
  deriving DecidableEq, Repr

namespace SystemError

def message : SystemError → String
  | plain text => text
  | numbered number text subject =>
    "[Errno " ++ toString number ++ "] " ++ text ++
      (match subject with
        | none => ""
        | some subject => ": " ++ subject)

def missing (subject : String) : SystemError :=
  numbered 2 "No such file or directory" (some subject)

def notPermitted (subject : String) : SystemError :=
  numbered 13 "Permission denied" (some subject)

def notDirectory (subject : String) : SystemError :=
  numbered 20 "Not a directory" (some subject)

def isDirectory (subject : String) : SystemError :=
  numbered 21 "Is a directory" (some subject)

def nameTooLong (subject : String) : SystemError :=
  numbered 36 "File name too long" (some subject)

end SystemError

inductive Refusal where
  | failed (error : SystemError)
  | nulCharacter
  deriving DecidableEq, Repr

def Refusal.failure (report : SystemError → DriverError) : Refusal → Failure
  | failed error => .reported (report error)
  | nulCharacter => .unreported .nulCharacter

end GoMetadata
