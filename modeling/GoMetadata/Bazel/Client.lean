import GoMetadata.Host

/-!
Bazel as a program: its command lines, and what their results mean. A build writes its event log
into a file that exists for the time of the build only, whatever becomes of it. To a run it is a
service that answers queries and builds.
-/

namespace GoMetadata

structure Bazel where
  binary : String := "bazel"
  startupFlags : List String := []
  directory : Option Path := none
  deriving DecidableEq, Repr

namespace Bazel

def command (bazel : Bazel) (name : String) (arguments : List String) : List String :=
  bazel.binary :: bazel.startupFlags ++ name :: arguments

def buildCommand (bazel : Bazel) (log : Path) (group : String) (flags targets : List String) :
    List String :=
  bazel.command "build"
    (["--output_groups=" ++ group, "--build_event_binary_file=" ++ log.text] ++ flags ++
      "--" :: targets)

def notStarted : Int := 127

def start (bazel : Bazel) (name : String) (streams : Bool) (command : List String) :
    HostExchange Finished := do
  match ← Host.start ⟨command, bazel.directory, streams⟩ with
  | .ok finished => return finished
  | .error refusal =>
    Exchange.fail (refusal.failure fun error =>
      .invocationFailed name (some notStarted) error.message)

/-- The answer to a query. What bazel says beside it is shown, also where the query fails. -/
def query (bazel : Bazel) (expression : String) : HostExchange String := do
  let finished ← bazel.start "query" false (bazel.command "query" [expression])
  let errors := finished.errors.getD ""
  if errors ≠ "" then
    Host.print (.forwarded errors)
  if finished.exitCode ≠ 0 then
    Exchange.fail (.reported
      (.invocationFailed "query" (some finished.exitCode) (Text.strip errors)))
  else return finished.output.getD ""

def withLog {α : Type} (directory : Option Path) (work : Path → HostExchange α) :
    HostExchange α := do
  match ← Host.reserveLog directory with
  | .error refusal =>
    Exchange.fail (refusal.failure fun error =>
      .invocationFailed "build" none ("could not create build event file: " ++ error.message))
  | .ok log =>
    let result ← (work log).outcome
    Host.removeFile log
    Exchange.ofResult result

def collectLog (log : Path) (finished : Finished) : HostExchange Bytes := do
  if finished.exitCode ≠ 0 then
    Exchange.fail (.reported (.invocationFailed "build" (some finished.exitCode) ""))
  else
    match ← Host.read log with
    | .ok bytes => return bytes
    | .error refusal =>
      Exchange.fail (refusal.failure fun error =>
        .invocationFailed "build" (some finished.exitCode)
          ("could not read build event file: " ++ error.message))

def build (bazel : Bazel) (group : String) (flags targets : List String) : HostExchange Bytes :=
  withLog none fun log => do
    let finished ← bazel.start "build" true (bazel.buildCommand log group flags targets)
    collectLog log finished

end Bazel

/-!
What a run asks of its surroundings, as it sees them: queries and builds, of which each may fail,
files to read, and notices to show. Bazel on a machine is one such service.
-/

namespace BuildService

inductive Ask where
  | query (expression : String)
  | build (group : String) (flags targets : List String)
  | read (path : Path)
  | print (notice : Notice)
  deriving DecidableEq, Repr

abbrev Reply : Ask → Type
  | .query _ => Except Failure String
  | .build _ _ _ => Except Failure Bytes
  | .read _ => Except Refusal Bytes
  | .print _ => Unit

def Ask.isForBuilder : Ask → Bool
  | .query _ => true
  | .build _ _ _ => true
  | _ => false

end BuildService

abbrev Session := Exchange BuildService.Ask BuildService.Reply

namespace Session

def tryQuery (expression : String) : Session (Except Failure String) :=
  Exchange.put (BuildService.Ask.query expression)

def build (group : String) (flags targets : List String) : Session Bytes := do
  Exchange.ofResult (← Exchange.put (BuildService.Ask.build group flags targets))

def read (path : Path) : Session (Except Refusal Bytes) :=
  Exchange.put (BuildService.Ask.read path)

def print (notice : Notice) : Session Unit :=
  Exchange.put (BuildService.Ask.print notice)

end Session

namespace Bazel

def answer (bazel : Bazel) : (question : BuildService.Ask) →
    Dialogue Host.Ask Host.Reply (BuildService.Reply question)
  | .query expression => (bazel.query expression).run
  | .build group flags targets => (bazel.build group flags targets).run
  | .read path => Dialogue.put (Host.Ask.read path)
  | .print notice => Dialogue.put (Host.Ask.print notice)

def serve {α : Type} (bazel : Bazel) (session : Session α) : HostExchange α :=
  ExceptT.mk (session.run.through bazel.answer)

end Bazel

end GoMetadata
