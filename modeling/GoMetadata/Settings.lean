import GoMetadata.Error
import GoMetadata.FileTree
import GoMetadata.Toml.Basic
import GoMetadata.Toml.Reader

/-!
Settings of a run. The environment goes before the configuration file, and that before the defaults;
the flags of builds are those of both sources together. A variable that is blank counts as missing,
and so does a configuration file that cannot be read or makes no sense.
-/

namespace GoMetadata

abbrev Environment := List (String × String)

structure Settings where
  bazel : String := "bazel"
  startupFlags : List String := []
  outputGroup : String := "gopackagesdriver_data"
  sourceSuffix : String := ".go"
  buildFlags : List String := []
  workspaceRoot : Path
  verbose : Bool := false
  deriving DecidableEq, Repr

def Environment.get (environment : Environment) (name default : String) : String :=
  Text.strip ((environment.lookup name).getD default)

namespace Settings

def separatesFlags (c : Char) : Bool :=
  c == ',' || Text.isBlank c

def splitFlags (text : String) : List String :=
  (Text.runs separatesFlags text.toList).map String.ofList

def listedFlags (items : List Toml.Value) : Except Defect (List String) := do
  let texts ← items.mapM Toml.Value.toText
  return (texts.map Text.strip).filter (· ≠ "")

def flagsOf : Toml.Value → Except Defect (List String)
  | .text text => .ok (splitFlags text)
  | .list items => listedFlags items
  | _ => .ok []

def isYes (text : String) : Bool :=
  ["1", "true", "yes", "on"].contains
    (String.ofList ((Text.stripChars text.toList).map Char.toLower))

def flagOf : Toml.Value → Bool
  | .bool value => value
  | .int value => value ≠ 0
  | .text text => isYes text
  | _ => false

def textOf (default : String) : Toml.Value → String
  | .text text => if Text.strip text = "" then default else Text.strip text
  | _ => default

def configVariable : String := "GOPACKAGESDRIVER_CONFIG"

def bazelVariable : String := "GOPACKAGESDRIVER_BAZEL"

def startupFlagsVariable : String := "GOPACKAGESDRIVER_BAZEL_FLAGS"

def buildFlagsVariable : String := "GOPACKAGESDRIVER_BAZEL_BUILD_FLAGS"

def workspaceVariable : String := "GOPACKAGESDRIVER_WORKSPACE"

def verboseVariable : String := "GOPACKAGESDRIVER_VERBOSE"

def variableNames : List String :=
  [configVariable, bazelVariable, startupFlagsVariable, buildFlagsVariable, workspaceVariable,
    verboseVariable]

def configName : String := "gopackagesdriver.toml"

def defaultConfig (base : Path) : Path :=
  base.join (.ofText configName)

def configPath (base : Path) (environment : Environment) : Path :=
  let chosen := environment.get configVariable ""
  if chosen = "" then defaultConfig base else .ofText chosen

/-- The configuration in what came of reading its file. Only a file that is not UTF-8, a path that
cannot be asked for and a numeral that is too long are no missing configuration. -/
def readConfig : Except Refusal Bytes → Except Defect Toml.Table
  | .error (.failed _) => .ok []
  | .error .nulCharacter => .error .nulCharacter
  | .ok bytes =>
    match Utf8.decode bytes with
    | .error fault => .error (.undecodable fault)
    | .ok text =>
      match Toml.parse (Text.unifyLineEnds text.toList) with
      | .error .malformed => .ok []
      | .error (.numeralTooLong digits) => .error (.numeralTooLong digits)
      | .ok table => .ok table

def sectionOf (config : Toml.Table) : Toml.Table :=
  match config.get "driver" with
  | .table entries => entries
  | _ => []

def override (environment : Environment) (name : String) (otherwise : String) : String :=
  let chosen := environment.get name ""
  if chosen = "" then otherwise else chosen

def chooseStartupFlags (environment : Environment) (found : Toml.Table) :
    Except Defect (List String) :=
  let chosen := environment.get startupFlagsVariable ""
  if chosen = "" then flagsOf (found.get "bazel_startup_flags") else .ok (splitFlags chosen)

def chooseBuildFlags (environment : Environment) (found : Toml.Table) :
    Except Defect (List String) := do
  let configured ← flagsOf (found.get "build_flags")
  return configured ++ splitFlags (environment.get buildFlagsVariable "")

def chooseWorkspace (base : Path) (environment : Environment) (found : Toml.Table) : Path :=
  let chosen :=
    override environment workspaceVariable (textOf "" (found.get "workspace_root"))
  base.join (if chosen = "" then base else .ofText chosen)

def chooseVerbose (environment : Environment) (found : Toml.Table) : Bool :=
  let chosen := environment.get verboseVariable ""
  if chosen = "" then flagOf (found.get "verbose") else isYes chosen

def choose (base : Path) (environment : Environment) (found : Toml.Table) :
    Except Defect Settings := do
  let startupFlags ← chooseStartupFlags environment found
  let buildFlags ← chooseBuildFlags environment found
  return {
    bazel := override environment bazelVariable (textOf "bazel" (found.get "bazel"))
    startupFlags
    outputGroup := textOf "gopackagesdriver_data" (found.get "output_group")
    sourceSuffix := textOf ".go" (found.get "source_suffix")
    buildFlags
    workspaceRoot := chooseWorkspace base environment found
    verbose := chooseVerbose environment found }

def ofConfigFile (base : Path) (environment : Environment) (content : Except Refusal Bytes) :
    Except Defect Settings := do
  choose base environment (sectionOf (← readConfig content))

def load (read : Path → Except Refusal Bytes) (base : Path) (environment : Environment) :
    Except Defect Settings :=
  ofConfigFile base environment (read (configPath base environment))

end Settings

end GoMetadata
