import GoMetadata.Error
import GoMetadata.Json.Basic
import GoMetadata.Json.Reader
import GoMetadata.Json.Writer
import GoMetadata.Package

/-!
What a run is started with and what it answers. The request is a JSON object of which every field
may be missing, and nothing but blanks is the empty request. The response holds the packages that
were found and which of them were asked for.
-/

namespace GoMetadata

structure Request where
  command : String := ""
  mode : Int := 0
  env : List String := []
  buildFlags : List String := []
  tests : Bool := false
  /-- Contents that replace files; they are read and not applied. -/
  overlay : List (String × String) := []
  deriving DecidableEq, Repr, Inhabited

namespace Request

open Checked

def check (entries : List (String × Json)) : Checked Request :=
  Request.mk
    <$> field ["command"] (valid "") (orNull "" string) entries
    <*> field ["mode"] (valid 0) integer entries
    <*> field ["env"] (valid []) (orNull [] (list string)) entries
    <*> field ["build_flags"] (valid []) (orNull [] (list string)) entries
    <*> field ["tests"] (valid false) flag entries
    <*> field ["overlay"] (valid []) (orNull [] (dictionary string)) entries

def malformed {α : Type} (reason : String) : Except Failure α :=
  .error (.reported (.malformedRequest reason))

def ofText (text : String) : Except Failure Request :=
  if Text.isBlankText text then .ok {}
  else
    match Json.parse text.toList with
    | .error (.numeralTooLong digits) => .error (.unreported (.numeralTooLong digits))
    | .error (.malformed complaint index) =>
      malformed (Json.complaintMessage text.toList complaint index)
    | .ok (.object entries) =>
      match check entries with
      | .valid request => .ok request
      | .invalid faults => malformed (summary faults "DriverRequest")
    | .ok value => malformed ("expected a JSON object, got " ++ value.kind)

def decode (bytes : Bytes) : Except Failure Request :=
  match Utf8.decode bytes with
  | .error fault => malformed ("request is not valid UTF-8: " ++ fault.message)
  | .ok text => ofText text

end Request

structure Response where
  /-- Type sizes are not inferred, so a run leaves them out. -/
  sizes : Option (List (String × Int)) := none
  roots : List String := []
  packages : List Descriptor := []
  deriving DecidableEq, Repr, Inhabited

/-- The text of a response in JSON, which has no name for a number that is not finite. -/
def encodeResponse (response : Json) : Except DriverError String :=
  if response.allFinite then .ok (response.render Json.compact)
  else .error (.unencodableResponse "Out of range float values are not JSON compliant")

namespace Response

open Checked

def check : Json → Checked Response
  | .object entries =>
    Response.mk
      <$> field ["Sizes", "sizes"] (valid none)
        (orNull none fun value => some <$> dictionary integer value) entries
      <*> field ["Roots", "roots"] (valid []) (orNull [] (list string)) entries
      <*> field ["Packages", "packages"] (valid []) (orNull [] (list Descriptor.check)) entries
  | _ => fault

def sizesJson : Option (List (String × Int)) → Json
  | none => .null
  | some sizes => .object (sizes.map fun (name, size) => (name, .int size))

def toJson (response : Response) : Json :=
  .object
    ([("Sizes", sizesJson response.sizes)]
      ++ (if response.roots = [] then [] else [("Roots", .array (response.roots.map .text))])
      ++ [("Packages", .array (response.packages.map Descriptor.toJson))])

def encode (response : Response) : Except DriverError String :=
  encodeResponse response.toJson

end Response

end GoMetadata
