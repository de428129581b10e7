import GoMetadata.Session

/-!
The command line. Arguments are identifiers, up to a lone double dash options too; the request comes
in as bytes, and the response goes out if there is one. Failures are shown on one line.
-/

namespace GoMetadata

inductive CommandLine where
  | invalid (option : String)
  | help
  | identifiers (texts : List String)
  deriving DecidableEq, Repr

namespace CommandLine

def isOption (argument : String) : Bool :=
  argument.toList.head? = some '-' && argument ≠ "-"

def unknown? (options : List String) : Option String :=
  options.find? (· ≠ "--help")

/-- Reads the arguments. What follows a double dash is no option. -/
def ofArguments (arguments : List String) : CommandLine :=
  let before := arguments.takeWhile (· ≠ "--")
  let after := (arguments.drop before.length).drop 1
  let options := before.filter isOption
  match unknown? options with
  | some option => invalid option
  | none =>
    if options = [] then identifiers (before ++ after) else help

structure Ending where
  exitCode : Nat
  output : String := ""
  defect : Option Defect := none
  deriving DecidableEq, Repr

def usage : String := "Usage: gopackagesdriver [--] IDENTIFIERS...\n"

def bazelOf (settings : Settings) : Bazel :=
  ⟨settings.bazel, settings.startupFlags, some settings.workspaceRoot⟩

def runWith (settings : Settings) (arguments : List String) (request : Bytes) :
    Dialogue Host.Ask Host.Reply Ending := do
  match ← ((bazelOf settings).serve (Session.respondTo settings arguments request)).run with
  | .ok response => return ⟨0, response, none⟩
  | .error (.reported error) =>
    Dialogue.put (Host.Ask.print (.failure error.message))
    return ⟨1, "", none⟩
  | .error (.unreported defect) => return ⟨1, "", some defect⟩

def loadSettings (base : Path) (environment : Environment) :
    Dialogue Host.Ask Host.Reply (Except Defect Settings) := do
  return Settings.ofConfigFile base environment
    (← Dialogue.put (Host.Ask.read (Settings.configPath base environment)))

/-- Runs the program in a directory, unless settings are given with those found there. -/
def run (given : Option Settings) (base : Path) (environment : Environment)
    (arguments : List String) (request : Bytes) : Dialogue Host.Ask Host.Reply Ending := do
  match ofArguments arguments with
  | invalid option =>
    Dialogue.put (Host.Ask.print (.failure ("no such option: " ++ option)))
    return ⟨2, "", none⟩
  | help => return ⟨0, usage, none⟩
  | identifiers texts =>
    match given with
    | some settings => runWith settings texts request
    | none =>
      match ← loadSettings base environment with
      | .ok settings => runWith settings texts request
      | .error defect => return ⟨1, "", some defect⟩

end CommandLine

end GoMetadata
