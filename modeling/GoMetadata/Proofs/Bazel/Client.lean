import GoMetadata.Bazel.Client
import GoMetadata.Proofs.Session.Course

/-!
All that can happen when bazel is given a command, whatever the machine replies. A build has a file
for its event log, which is removed on every way out; no other file is asked for.
-/

namespace GoMetadata

namespace Bazel

inductive Command where
  | query (expression : String)
  | build (group : String) (flags targets : List String)

namespace Command

abbrev Result : Command → Type
  | query _ => String
  | build _ _ _ => Bytes

def name : Command → String
  | query _ => "query"
  | build _ _ _ => "build"

def arguments (log : Path) : Command → List String
  | query expression => [expression]
  | build group flags targets =>
    ["--output_groups=" ++ group, "--build_event_binary_file=" ++ log.text] ++ flags ++
      "--" :: targets

def streams : Command → Bool
  | query _ => false
  | build _ _ _ => true

end Command

def perform (bazel : Bazel) :
    (command : Command) → Dialogue Host.Ask Host.Reply (Except Failure command.Result)
  | .query expression => (bazel.query expression).run
  | .build group flags targets => (bazel.build group flags targets).run

def invocation (bazel : Bazel) (log : Path) (command : Command) : Invocation :=
  ⟨bazel.binary :: bazel.startupFlags ++ command.name :: command.arguments log, bazel.directory,
    command.streams⟩

def heard (finished : Finished) : List Notice :=
  if finished.errors.getD "" = "" then [] else [.forwarded (finished.errors.getD "")]

def unstarted (command : Command) (refusal : Refusal) : Failure :=
  refusal.failure fun error => .invocationFailed command.name (some 127) error.message

def answered (finished : Finished) : Except Failure String :=
  if finished.exitCode = 0 then .ok (finished.output.getD "")
  else
    .error (.reported
      (.invocationFailed "query" (some finished.exitCode)
        (Text.strip (finished.errors.getD ""))))

def collected : Except Refusal Bytes → Except Failure Bytes
  | .ok content => .ok content
  | .error refusal =>
    .error (refusal.failure fun error =>
      .invocationFailed "build" (some 0) ("could not read build event file: " ++ error.message))

section Courses

abbrev Call := Sigma Host.Reply

variable (bazel : Bazel)

/-- All that can happen when bazel is given a command. -/
inductive Performs : (command : Command) → List Call → Except Failure command.Result → Prop where
  | unasked {expression : String} (log : Path) (refusal : Refusal) :
      Performs (.query expression)
        [⟨.start (bazel.invocation log (.query expression)), .error refusal⟩]
        (.error (unstarted (.query expression) refusal))
  | asked {expression : String} (log : Path) (finished : Finished) :
      Performs (.query expression)
        (⟨.start (bazel.invocation log (.query expression)), .ok finished⟩ ::
          (heard finished).map fun notice => ⟨.print notice, ()⟩)
        (answered finished)
  | unreserved {group : String} {flags targets : List String} (refusal : Refusal) :
      Performs (.build group flags targets) [⟨.reserveLog none, .error refusal⟩]
        (.error (refusal.failure fun error => .invocationFailed "build" none
          ("could not create build event file: " ++ error.message)))
  | unbuilt {group : String} {flags targets : List String} (log : Path) (refusal : Refusal) :
      Performs (.build group flags targets)
        [⟨.reserveLog none, .ok log⟩,
          ⟨.start (bazel.invocation log (.build group flags targets)), .error refusal⟩,
          ⟨.removeFile log, ()⟩]
        (.error (unstarted (.build group flags targets) refusal))
  | failed {group : String} {flags targets : List String} (log : Path) {finished : Finished}
      (wrong : finished.exitCode ≠ 0) :
      Performs (.build group flags targets)
        [⟨.reserveLog none, .ok log⟩,
          ⟨.start (bazel.invocation log (.build group flags targets)), .ok finished⟩,
          ⟨.removeFile log, ()⟩]
        (.error (.reported (.invocationFailed "build" (some finished.exitCode) "")))
  | built {group : String} {flags targets : List String} (log : Path) {finished : Finished}
      (right : finished.exitCode = 0) (content : Except Refusal Bytes) :
      Performs (.build group flags targets)
        [⟨.reserveLog none, .ok log⟩,
          ⟨.start (bazel.invocation log (.build group flags targets)), .ok finished⟩,
          ⟨.read log, content⟩, ⟨.removeFile log, ()⟩]
        (collected content)

variable {bazel} {α : Type} {calls : List Call}

theorem course_start_bind {name : String} {streams : Bool} {command : List String}
    {next : Finished → HostExchange α} {outcome : Except Failure α}
    (course : Exchange.Course (bazel.start name streams command >>= next) calls outcome) :
    (∃ refusal, calls = [⟨.start ⟨command, bazel.directory, streams⟩, .error refusal⟩] ∧
      outcome = .error (refusal.failure fun error =>
        .invocationFailed name (some notStarted) error.message)) ∨
    ∃ finished after, (next finished).Course after outcome ∧
      calls = ⟨.start ⟨command, bazel.directory, streams⟩, .ok finished⟩ :: after := by
  rw [Bazel.start, bind_assoc] at course
  obtain ⟨reply, after, rest, rfl⟩ := Exchange.course_put_bind course
  cases reply with
  | error refusal =>
    obtain ⟨rfl, rfl⟩ := Exchange.course_ofResult rest
    exact .inl ⟨refusal, rfl, rfl⟩
  | ok finished => exact .inr ⟨finished, after, rest, rfl⟩

theorem course_answered {finished : Finished} {outcome : Except Failure String}
    (course : Exchange.Course (if finished.exitCode ≠ 0 then
        Exchange.fail (.reported (.invocationFailed "query" (some finished.exitCode)
          (Text.strip (finished.errors.getD ""))))
      else return finished.output.getD "") calls outcome) :
    calls = [] ∧ outcome = answered finished := by
  unfold answered
  split at course
  next wrong =>
    rw [if_neg wrong]
    exact Exchange.course_ofResult course
  next right =>
    rw [if_pos (not_not.1 right)]
    exact Exchange.course_ofResult course

theorem performs_of_course_query {expression : String} {outcome : Except Failure String}
    (course : Exchange.Course (bazel.query expression) calls outcome) :
    Performs bazel (.query expression) calls outcome := by
  rcases course_start_bind course with ⟨refusal, rfl, rfl⟩ | ⟨finished, after, rest, rfl⟩
  · exact .unasked {} refusal
  have all : after = (heard finished).map (fun notice => ⟨.print notice, ()⟩) ∧
      outcome = answered finished := by
    unfold heard
    dsimp only at rest
    split at rest
    next said =>
      rw [if_neg said]
      obtain ⟨_, last, ended, rfl⟩ := Exchange.course_put_bind rest
      obtain ⟨rfl, rfl⟩ := course_answered ended
      exact ⟨rfl, rfl⟩
    next silent =>
      rw [if_pos (not_not.1 silent)]
      exact course_answered rest
  obtain ⟨rfl, rfl⟩ := all
  exact .asked {} finished

theorem course_collectLog {log : Path} {finished : Finished} {outcome : Except Failure Bytes}
    (course : (collectLog log finished).Course calls outcome) :
    (finished.exitCode ≠ 0 ∧ calls = [] ∧
      outcome = .error (.reported (.invocationFailed "build" (some finished.exitCode) ""))) ∨
    (finished.exitCode = 0 ∧
      ∃ content, calls = [⟨.read log, content⟩] ∧ outcome = collected content) := by
  unfold collectLog at course
  split at course
  next wrong => exact .inl ⟨wrong, Exchange.course_ofResult course⟩
  next right =>
    have right := not_not.1 right
    obtain ⟨content, after, rest, rfl⟩ := Exchange.course_put_bind course
    refine .inr ⟨right, content, ?_⟩
    cases content with
    | ok bytes =>
      obtain ⟨rfl, rfl⟩ := Exchange.course_ofResult rest
      exact ⟨rfl, rfl⟩
    | error refusal =>
      obtain ⟨rfl, rfl⟩ := Exchange.course_ofResult rest
      refine ⟨rfl, ?_⟩
      rw [collected, right]

theorem performs_of_course_build {group : String} {flags targets : List String}
    {outcome : Except Failure Bytes}
    (course : Exchange.Course (bazel.build group flags targets) calls outcome) :
    Performs bazel (.build group flags targets) calls outcome := by
  obtain ⟨reply, after, reserved, rfl⟩ := Exchange.course_put_bind course
  cases reply with
  | error refusal =>
    obtain ⟨rfl, rfl⟩ := Exchange.course_ofResult reserved
    exact .unreserved refusal
  | ok log =>
    obtain ⟨result, inside, last, worked, ended, rfl⟩ := Exchange.course_outcome_bind reserved
    obtain ⟨_, _, known, rfl⟩ := Exchange.course_put_bind ended
    obtain ⟨rfl, rfl⟩ := Exchange.course_ofResult known
    rcases course_start_bind worked with ⟨refusal, rfl, rfl⟩ | ⟨finished, after, rest, rfl⟩
    · exact .unbuilt log refusal
    · rcases course_collectLog rest with ⟨wrong, rfl, rfl⟩ | ⟨right, content, rfl, rfl⟩
      · exact .failed log wrong
      · exact .built log right content

/-- Nothing else can happen, whatever the machine replies. -/
theorem performs_of_course {command : Command} {reply : Except Failure command.Result}
    (course : (bazel.perform command).Course calls reply) : Performs bazel command calls reply := by
  cases command with
  | query expression => exact performs_of_course_query course
  | build group flags targets => exact performs_of_course_build course

end Courses

section Files

def LeavesFiles (calls : List Call) : Prop :=
  ∀ call ∈ calls, (∃ invocation reply, call = ⟨.start invocation, reply⟩) ∨
    (∃ notice, call = ⟨.print notice, ()⟩) ∨ ∃ refusal, call = ⟨.reserveLog none, .error refusal⟩

/-- A file is created for an event log, may be read while a program runs, and is removed in the end;
nothing else is asked of the files. -/
def KeepsToLog (calls : List Call) : Prop :=
  ∃ log inside, calls = ⟨.reserveLog none, .ok log⟩ :: inside ++ [⟨.removeFile log, ()⟩] ∧
    ∀ call ∈ inside, (∃ invocation reply, call = ⟨.start invocation, reply⟩) ∨
      ∃ content, call = ⟨.read log, content⟩

theorem Performs.leavesFiles_or_keepsToLog {bazel : Bazel} {command : Command} {calls : List Call}
    {reply : Except Failure command.Result} (performs : Performs bazel command calls reply) :
    LeavesFiles calls ∨ KeepsToLog calls := by
  cases performs with
  | unasked log refusal => exact .inl (List.forall_mem_singleton.2 (.inl ⟨_, _, rfl⟩))
  | asked log finished =>
    refine .inl (List.forall_mem_cons.2 ⟨.inl ⟨_, _, rfl⟩, ?_⟩)
    intro call member
    obtain ⟨notice, -, rfl⟩ := List.mem_map.1 member
    exact .inr (.inl ⟨notice, rfl⟩)
  | unreserved refusal => exact .inl (List.forall_mem_singleton.2 (.inr (.inr ⟨refusal, rfl⟩)))
  | unbuilt log refusal =>
    exact .inr ⟨log, [_], rfl, List.forall_mem_singleton.2 (.inl ⟨_, _, rfl⟩)⟩
  | failed log wrong =>
    exact .inr ⟨log, [_], rfl, List.forall_mem_singleton.2 (.inl ⟨_, _, rfl⟩)⟩
  | built log right content =>
    exact .inr ⟨log, [_, _], rfl, List.forall_mem_cons.2
      ⟨.inl ⟨_, _, rfl⟩, List.forall_mem_singleton.2 (.inr ⟨content, rfl⟩)⟩⟩

end Files

end Bazel

end GoMetadata
