import GoMetadata.FileTree
import GoMetadata.Host

/-!
A machine on which programs are not started but played back: each start takes the next recorded run.
The machine keeps what it was asked, so a session can be looked at afterwards.
-/

namespace GoMetadata

/-!
Where a program is looked for, and why none starts on a machine whose files are no programs. A name
with a slash in it is a path; any other name is looked for in the directories of a search path.
-/

namespace Program

def defaultSearchPath : String := "/bin:/usr/bin"

def directories (searchPath : String) : List String :=
  (Text.pieces (· == ':') searchPath.toList).map String.ofList

def inside (directory name : String) : String :=
  if directory = "" ∨ directory.toList.getLast? = some '/' then directory ++ name
  else directory ++ "/" ++ name

def places (searchPath name : String) : List String :=
  if name.toList.contains '/' then [name] else (directories searchPath).map (inside · name)

/-- The error of running what a path text leads to. A file or directory that is there may not be
run. -/
def errorAt (files : FileTree) (cwd : Path) (subject place : String) : SystemError :=
  match files.findText cwd place subject with
  | .error error => error
  | .ok _ => .notPermitted subject

def isAbsence (subject : String) (error : SystemError) : Bool :=
  error = .missing subject || error = .notDirectory subject

/-- The error that stands for those at several places: the first that is more than an absence, else
the last. -/
def mainError (subject : String) (errors : List SystemError) : SystemError :=
  match errors.find? fun error => !isAbsence subject error with
  | some error => error
  | none => errors.getLastD (.missing subject)

def error (files : FileTree) (cwd : Path) (searchPath name : String) : SystemError :=
  let subject := Text.quoted name
  mainError subject ((places searchPath name).map (errorAt files cwd subject))

/-- Why a start is refused. The directory in which the program would run is looked at first. -/
def refusal (files : FileTree) (cwd : Path) (searchPath : String) (invocation : Invocation) :
    Refusal :=
  let directory := invocation.directory.getD {}
  let subject := "PosixPath(" ++ Text.quoted directory.text ++ ")"
  if invocation.hasNul then .nulCharacter
  else
    .failed ((files.entryError? cwd directory subject).getD
      (error files (cwd.join directory) searchPath (invocation.command.headD "")))

end Program

/-! Runs that are played back -/

inductive LogChange where
  | keep
  | write (content : Bytes)
  | remove
  deriving DecidableEq, Repr

structure RecordedRun where
  refusal : Option Refusal := none
  /-- What the program says while it runs, where its output goes on to the diagnostics. -/
  said : String := ""
  logChange : LogChange := .keep
  finished : Finished := {}
  deriving DecidableEq, Repr

structure Recording where
  runs : List RecordedRun := []
  /-- What is played back when no run is left. -/
  otherwise : Invocation → RecordedRun := fun _ => {}
  files : FileTree := .directory []
  cwd : Path := {}
  logs : List (Path × Bytes) := []
  reserved : Nat := 0
  invocations : List Invocation := []
  notices : List Notice := []
  said : String := ""
  diagnostics : String := ""

namespace Recording

def logPath (recording : Recording) (directory : Option Path) : Path :=
  (recording.cwd.join (directory.getD Host.logDirectory)).collapse.join
    (.ofText (Host.logName recording.reserved))

/-- Creates an event log under a name that no other has. A directory that is asked for must be
there. -/
def reserveLog (recording : Recording) (directory : Option Path) :
    Except Refusal Path × Recording :=
  let log := recording.logPath directory
  match directory.bind fun _ => recording.files.creationRefusal? recording.cwd log with
  | some refusal => (.error refusal, recording)
  | none =>
    (.ok log,
      { recording with
        logs := (log, []) :: recording.logs
        reserved := recording.reserved + 1 })

def changeLog (change : LogChange) (logs : List (Path × Bytes)) : List (Path × Bytes) :=
  match change, logs with
  | .write content, (log, _) :: rest => (log, content) :: rest
  | .remove, _ :: rest => rest
  | _, logs => logs

/-- Plays back a run. Only a program that starts, and whose output goes on to the diagnostics, is
heard while it runs and writes an event log. -/
def playBack (run : RecordedRun) (invocation : Invocation) (recording : Recording) :
    Except Refusal Finished × Recording :=
  let recording := { recording with invocations := recording.invocations ++ [invocation] }
  match run.refusal with
  | some refusal => (.error refusal, recording)
  | none =>
    let (said, change) := if invocation.streams then (run.said, run.logChange) else ("", .keep)
    (.ok run.finished,
      { recording with
        said := recording.said ++ said
        diagnostics := recording.diagnostics ++ said
        logs := changeLog change recording.logs })

def start (recording : Recording) (invocation : Invocation) :
    Except Refusal Finished × Recording :=
  match recording.runs with
  | [] => playBack (recording.otherwise invocation) invocation recording
  | run :: runs => playBack run invocation { recording with runs }

def read (recording : Recording) (path : Path) : Except Refusal Bytes :=
  match recording.logs.lookup path with
  | some content => .ok content
  | none => recording.files.read recording.cwd path

def removeFile (recording : Recording) (path : Path) : Recording :=
  { recording with logs := recording.logs.filter (·.1 ≠ path) }

def print (recording : Recording) (notice : Notice) : Recording :=
  { recording with
    notices := recording.notices ++ [notice]
    diagnostics := recording.diagnostics ++ notice.text }

def answer (recording : Recording) : (question : Host.Ask) → Host.Reply question × Recording
  | .reserveLog directory => recording.reserveLog directory
  | .start invocation => recording.start invocation
  | .read path => (recording.read path, recording)
  | .removeFile path => ((), recording.removeFile path)
  | .print notice => ((), recording.print notice)

def play {α : Type} (recording : Recording) (dialogue : Dialogue Host.Ask Host.Reply α) :
    α × Recording :=
  dialogue.hold answer recording

def bare (files : FileTree) (cwd : Path) (searchPath : String) : Recording :=
  let files := (Program.directories Program.defaultSearchPath).foldl
    (fun files directory => files.putDirectory (Path.ofText directory).parts) files
  { files, cwd
    otherwise := fun invocation =>
      { refusal := some (Program.refusal files cwd searchPath invocation) } }

end Recording

end GoMetadata
