import GoMetadata.Proofs.Bazel.Commands
import GoMetadata.Proofs.Session.Output
import GoMetadata.Proofs.Session.Reports

/-!
Failures of a run with bazel. The message is on one line, and so is what the command line reports.
Of what a failing command of bazel said only the last line that is not blank goes into it, also
where a source file could not be looked up because of it.
-/

namespace GoMetadata

open Text (SingleLine)
open DriverError (Adds)

namespace Bazel

section Commands

variable {bazel : Bazel} {command : Command} {calls : List Call}

theorem isPlain_of_refusal {refusal : Refusal} {report : SystemError → DriverError}
    {error : DriverError} (failed : refusal.failure report = .reported error)
    (plain : ∀ found, (report found).IsPlain) : error.IsPlain := by
  cases refusal with
  | failed found =>
    cases failed
    exact plain found
  | nulCharacter => cases failed

theorem Performs.isPlain {reply : Except Failure command.Result}
    (performs : Performs bazel command calls reply) {error : DriverError}
    (failed : reply = .error (.reported error)) : error.IsPlain := by
  have query : SingleLine "query" := by decide
  have build : SingleLine "build" := by decide
  cases performs with
  | unasked log refusal => exact isPlain_of_refusal (Except.error.inj failed) fun _ => query
  | asked log finished =>
    unfold answered at failed
    split at failed
    · cases failed
    · cases failed
      exact query
  | unreserved refusal => exact isPlain_of_refusal (Except.error.inj failed) fun _ => build
  | unbuilt log refusal => exact isPlain_of_refusal (Except.error.inj failed) fun _ => build
  | failed log wrong =>
    cases failed
    exact build
  | built log right content =>
    cases content with
    | ok content => cases failed
    | error refusal => exact isPlain_of_refusal (Except.error.inj failed) fun _ => build

def ReadsLog (calls : List Call) (log : Bytes) : Prop :=
  ∃ path, ⟨.reserveLog none, .ok path⟩ ∈ calls ∧ ⟨.read path, .ok log⟩ ∈ calls

theorem Performs.readsLog {group : String} {flags targets : List String} {log : Bytes}
    (performs : Performs bazel (.build group flags targets) calls (.ok log)) :
    ReadsLog calls log := by
  generalize same : (.ok log : Except Failure Bytes) = reply at performs
  cases performs with
  | built path right content =>
    cases content with
    | ok content =>
      cases same
      exact ⟨path, by simp⟩
    | error refusal => cases same
  | _ => cases same

end Commands

section Explanations

def errorsKept : Command → Finished → String
  | .query _, finished => finished.errors.getD ""
  | .build _ _ _, _ => ""

/-- How the failure of a command is told: that of a query with the source file that it is for. -/
def failureText (code : Int) (added : String) (command : Command) : String :=
  let failed := "error running bazel " ++ command.name ++ ": exit status " ++ toString code ++ added
  match command with
  | .query path =>
    "unable to map source file " ++ Text.quoted path ++ " to bazel label: " ++ failed
  | .build _ _ _ => failed

/-- The message tells of a program that was not started, or of one that failed, with one line at
most of what was said. -/
inductive Explains (bazel : Bazel) : Call → String → Prop where
  | refused (log : Path) (command : Command) {found : SystemError} {added : String}
      (adds : Adds found.message added) :
      Explains bazel ⟨.start (bazel.invocation log command), .error (.failed found)⟩
        (failureText 127 added command)
  | failed (log : Path) (command : Command) {finished : Finished} {added : String}
      (adds : Adds (errorsKept command finished) added) :
      Explains bazel ⟨.start (bazel.invocation log command), .ok finished⟩
        (failureText finished.exitCode added command)

def IsFailedStart : Call → Prop
  | ⟨.start _, .error _⟩ => True
  | ⟨.start _, .ok finished⟩ => finished.exitCode ≠ 0
  | _ => False

def endOf (failure : Failure) : Command → Except Failure String
  | .query path => Session.targetOfReply path (.error failure)
  | .build _ _ _ => .error failure

theorem message_invocationFailed (name : String) (code : Int) (said : String) :
    (DriverError.invocationFailed name (some code) said).message =
      "error running bazel " ++ name ++ ": exit status " ++ toString code ++
        DriverError.lastLine said := by
  have status : "error running bazel " ++ name ++ ": exit status " ++ toString code =
      "error running bazel " ++ name ++ (": exit status " ++ toString code) :=
    String.append_assoc
  exact congrArg (· ++ DriverError.lastLine said) status.symm

theorem message_ambiguousSource {path reason : String} (some : reason ≠ "") :
    (DriverError.ambiguousSource path [] reason).message =
      "unable to map source file " ++ Text.quoted path ++ " to bazel label: " ++ reason :=
  if_neg some

theorem message_of_endOf (command : Command) {code : Int} {said : String} {error : DriverError}
    (ended : endOf (.reported (.invocationFailed command.name (some code) said)) command =
      .error (.reported error)) :
    error.message = failureText code (DriverError.lastLine said) command := by
  have message := message_invocationFailed command.name code said
  cases command with
  | query path =>
    cases ended
    rw [message_ambiguousSource, message]
    · rfl
    · rw [message]
      simp
  | build group flags targets =>
    cases ended
    exact message

variable {bazel : Bazel} {command : Command} {calls : List Call}

theorem explains_of_refused (log : Path) {refusal : Refusal} {error : DriverError}
    (ended : endOf (unstarted command refusal) command = .error (.reported error)) :
    Explains bazel ⟨.start (bazel.invocation log command), .error refusal⟩ error.message := by
  cases refusal with
  | failed found =>
    rw [message_of_endOf command ended]
    exact .refused log command (DriverError.adds_lastLine found.message)
  | nulCharacter => cases command <;> cases ended

theorem IsFailedStart.mem_inside {call : Call} (wrong : IsFailedStart call) {log : Path}
    (inside : List Call)
    (member : call ∈ ⟨.reserveLog none, .ok log⟩ :: inside ++ [⟨.removeFile log, ()⟩]) :
    call ∈ inside := by
  rcases List.mem_append.1 member with before | last
  · rcases List.mem_cons.1 before with rfl | found
    · cases wrong
    · exact found
  · obtain rfl := List.mem_singleton.1 last
    cases wrong

/-- Where a start fails, so does the command, and the failure tells of it. -/
theorem Performs.explains {reply : Except Failure command.Result}
    (performs : Performs bazel command calls reply) {call : Call} (member : call ∈ calls)
    (wrong : IsFailedStart call) :
    ∃ failure, reply = .error failure ∧
      ∀ error, endOf failure command = .error (.reported error) →
        Explains bazel call error.message := by
  cases performs with
  | unasked log refusal =>
    obtain rfl := List.mem_singleton.1 member
    exact ⟨_, rfl, fun error ended => explains_of_refused log ended⟩
  | @asked expression log finished =>
    rcases List.mem_cons.1 member with rfl | shown
    · refine ⟨_, if_neg wrong, fun error ended => ?_⟩
      rw [message_of_endOf (.query expression) ended, DriverError.lastLine_strip]
      exact .failed log (.query expression) (DriverError.adds_lastLine _)
    · obtain ⟨notice, -, rfl⟩ := List.mem_map.1 shown
      cases wrong
  | unreserved refusal =>
    obtain rfl := List.mem_singleton.1 member
    cases wrong
  | unbuilt log refusal =>
    obtain rfl := List.mem_singleton.1 (wrong.mem_inside [_] member)
    exact ⟨_, rfl, fun error ended => explains_of_refused log ended⟩
  | @failed group flags targets log finished exited =>
    obtain rfl := List.mem_singleton.1 (wrong.mem_inside [_] member)
    refine ⟨_, rfl, fun error ended => ?_⟩
    rw [message_of_endOf (.build group flags targets) ended]
    exact .failed log (.build group flags targets) (DriverError.adds_lastLine _)
  | built log right content =>
    rcases List.mem_cons.1 (wrong.mem_inside [_, _] member) with rfl | read
    · exact absurd right wrong
    · obtain rfl := List.mem_singleton.1 read
      cases wrong

end Explanations

end Bazel

namespace Session

open Bazel (ReadsLog IsFailedStart Explains performs_of_course_query performs_of_course_build)

section Ends

variable {settings : Settings} {suffix : String} {arguments targets : List String}
  {request : Bytes} {calls : List Call} {outcome : Except Failure String}

theorem Resolves.eq_query {argument : String} {result : Except Failure String}
    (resolves : Resolves suffix argument calls result) {call : Call} (member : call ∈ calls) :
    ∃ path reply, call = ⟨.query path, reply⟩ ∧ result = targetOfReply path reply := by
  cases resolves with
  | label bare => cases member
  | otherKind other => cases member
  | lookedUp source reply => exact ⟨_, reply, List.mem_singleton.1 member, rfl⟩

theorem ResolvesAll.eq_answer (resolved : ResolvesAll suffix arguments calls targets) {call : Call}
    (member : call ∈ calls) : ∃ path answer, call = ⟨.query path, .ok answer⟩ := by
  induction resolved with
  | nil => cases member
  | cons first rest ih =>
    rcases List.mem_append.1 member with here | later
    · obtain ⟨path, reply, rfl, target⟩ := first.eq_query here
      cases reply with
      | ok answer => exact ⟨path, answer, rfl⟩
      | error failure => cases failure <;> cases target
    · exact ih later

theorem Asks.outcome_of_query (asks : Asks settings arguments request calls outcome) {path : String}
    {failure : Failure} (member : ⟨.query path, .error failure⟩ ∈ calls) :
    outcome = targetOfReply path (.error failure) := by
  cases asks with
  | unresolved decodable noPattern split resolved failed =>
    rcases List.mem_append.1 member with earlier | last
    · obtain ⟨_, _, same⟩ := resolved.eq_answer earlier
      cases same
    · obtain ⟨_, _, same, ended⟩ := failed.eq_query last
      cases same
      exact ended
  | built some decodable noPattern resolved passedOn =>
    rcases List.mem_append.1 member with earlier | last
    · obtain ⟨_, _, same⟩ := resolved.eq_answer earlier
      cases same
    · cases List.mem_singleton.1 last
  | _ => cases member

theorem Asks.outcome_of_build (asks : Asks settings arguments request calls outcome)
    {group : String} {flags targets : List String} {failure : Failure}
    (member : ⟨.build group flags targets, .error failure⟩ ∈ calls) : outcome = .error failure := by
  cases asks with
  | unresolved decodable noPattern split resolved failed =>
    rcases List.mem_append.1 member with earlier | last
    · obtain ⟨_, _, same⟩ := resolved.eq_answer earlier
      cases same
    · obtain ⟨_, _, same, _⟩ := failed.eq_query last
      cases same
  | built some decodable noPattern resolved passedOn =>
    rcases List.mem_append.1 member with earlier | last
    · obtain ⟨_, _, same⟩ := resolved.eq_answer earlier
      cases same
    · cases List.mem_singleton.1 last
      exact passedOn failure rfl
  | _ => cases member

end Ends

section Served

variable {bazel : Bazel} {settings : Settings} {arguments : List String} {request : Bytes}

theorem isTame_of_part {question : BuildService.Ask} {reply : BuildService.Reply question}
    {part : List Bazel.Call} (answered : (bazel.answer question).Course part reply)
    (labels : ∀ log label, ReadsLog part log → TellsCompleted log label → SingleLine label)
    (files : ∀ path error, ⟨.read path, .error (.failed error)⟩ ∈ part →
      SingleLine error.message) : IsTame ⟨question, reply⟩ := by
  cases question with
  | query path =>
    have performs := performs_of_course_query answered
    cases reply with
    | ok answer => trivial
    | error failure =>
      cases failure with
      | reported error => exact DriverError.singleLine_message (performs.isPlain rfl)
      | unreported defect => trivial
  | build group flags targets =>
    have performs := performs_of_course_build answered
    cases reply with
    | ok log => exact fun label => labels log label performs.readsLog
    | error failure =>
      cases failure with
      | reported error => exact performs.isPlain rfl
      | unreported defect => trivial
  | read path =>
    have asked : part = [⟨Host.Ask.read path, reply⟩] := Dialogue.course_put answered
    cases reply with
    | ok content => trivial
    | error refusal =>
      cases refusal with
      | failed error => exact files path error (asked ▸ List.mem_cons_self)
      | nulCharacter => trivial
  | print notice => trivial

/-- What a run reports is told on one line, and where a start fails the message tells of it,
whatever the machine replies. -/
theorem reported_of_course {calls : List Bazel.Call} {error : DriverError}
    (course : (bazel.serve (respondTo settings arguments request)).Course calls
      (.error (.reported error)))
    (plain : SingleLine settings.sourceSuffix)
    (labels : ∀ log label, ReadsLog calls log → TellsCompleted log label → SingleLine label)
    (files : ∀ path found, ⟨.read path, .error (.failed found)⟩ ∈ calls →
      SingleLine found.message) :
    error.IsPlain ∧ ∀ call ∈ calls, IsFailedStart call → Explains bazel call error.message := by
  obtain ⟨asked, session, through⟩ := Dialogue.exists_of_course_through course
  constructor
  · refine reports_respondTo plain arguments request asked error session ?_
    rintro ⟨question, reply⟩ member
    obtain ⟨part, answered, inside⟩ := through.exists_part member
    refine isTame_of_part answered ?_ fun path found member => files path found (inside member)
    rintro log label ⟨path, reserved, read⟩
    exact labels log label ⟨path, inside reserved, inside read⟩
  · intro call member wrong
    obtain ⟨question, reply, part, found, answered, here⟩ := through.exists_call member
    have asks := asks_of_course session
    cases question with
    | query path =>
      obtain ⟨failure, rfl, explained⟩ :=
        (performs_of_course_query answered).explains here wrong
      exact explained error (asks.outcome_of_query (List.mem_filter.2 ⟨found, rfl⟩)).symm
    | build group flags targets =>
      obtain ⟨failure, rfl, explained⟩ :=
        (performs_of_course_build answered).explains here wrong
      exact explained error (asks.outcome_of_build (List.mem_filter.2 ⟨found, rfl⟩)).symm
    | read path =>
      have asked : part = [⟨Host.Ask.read path, reply⟩] := Dialogue.course_put answered
      obtain rfl := List.mem_singleton.1 (asked ▸ here)
      cases wrong
    | print notice =>
      have asked : part = [⟨Host.Ask.print notice, reply⟩] := Dialogue.course_put answered
      obtain rfl := List.mem_singleton.1 (asked ▸ here)
      cases wrong

end Served

section Reported

theorem isSuffix_of_afterSequence? {text rest : List Char}
    (found : Notice.afterSequence? text = some rest) : rest <:+ text := by
  unfold Notice.afterSequence? at found
  split at found
  next tail =>
    have parameters := List.dropWhile_suffix (l := tail) Notice.isParameter
    split at found
    next c more same =>
      rw [same] at parameters
      split at found
      · cases found
        exact ((List.suffix_cons c rest).trans parameters).trans
          ((List.suffix_cons '[' tail).trans (List.suffix_cons '\x1b' ('[' :: tail)))
      · cases found
    next => cases found
  next => cases found

theorem plain_sublist (text : List Char) : (Notice.plain text).Sublist text := by
  fun_induction Notice.plain text with
  | case1 text rest found ih => exact ih.trans (isSuffix_of_afterSequence? found).sublist
  | case2 none => exact .slnil
  | case3 c rest none ih => exact ih.cons_cons c

theorem splitLines_failure {message : String} (plain : SingleLine message) :
    Text.splitLines (Notice.failure message).text.toList =
      [Notice.plain (Notice.heading ++ message).toList] := by
  have whole : SingleLine (Notice.heading ++ message) := .append (by decide) plain
  rw [Notice.text, Notice.line, String.toList_ofList]
  exact Text.splitLines_concat_of_plain fun c member =>
    whole c ((plain_sublist _).subset member)

theorem play_runWith {machine : Recording} {settings : Settings} {arguments : List String}
    {request : Bytes} {error : DriverError}
    (failed : (machine.play ((CommandLine.bazelOf settings).serve
      (respondTo settings arguments request)).run).1 = .error (.reported error)) :
    machine.play (CommandLine.runWith settings arguments request) =
      (⟨1, "", none⟩, (machine.play ((CommandLine.bazelOf settings).serve
        (respondTo settings arguments request)).run).2.print (.failure error.message)) := by
  refine (Dialogue.hold_bind Recording.answer machine _ _).trans ?_
  rw [Recording.play] at failed ⊢
  rw [failed]
  rfl

def readLogs (calls : List Bazel.Call) : List Bytes :=
  calls.filterMap fun
    | ⟨.read _, .ok log⟩ => some log
    | _ => none

theorem mem_readLogs {calls : List Bazel.Call} {log : Bytes} (read : ReadsLog calls log) :
    log ∈ readLogs calls := by
  obtain ⟨path, -, member⟩ := read
  exact List.mem_filterMap.2 ⟨_, member, rfl⟩

/-- A failure that a run with bazel reports is told on one line, and so is what the command line
shows of it, where the suffix of source files and the labels of completed targets are on one line.
The message tells of every start that failed. -/
theorem failure_is_one_line (machine : Recording) (bazel : Bazel) (settings : Settings)
    (arguments : List String) (request : Bytes) (error : DriverError)
    (plain : SingleLine settings.sourceSuffix) :
    let served := (bazel.serve (respondTo settings arguments request)).run
    let calls := served.transcript Recording.answer machine
    (machine.play served).1 = .error (.reported error) →
    (∀ log label, ReadsLog calls log → TellsCompleted log label → SingleLine label) →
    SingleLine error.message ∧
    (∀ call ∈ calls, IsFailedStart call → Explains bazel call error.message) ∧
    (∃ line, Text.splitLines (Notice.failure error.message).text.toList = [line]) ∧
    (bazel = CommandLine.bazelOf settings →
      machine.play (CommandLine.runWith settings arguments request) =
        (⟨1, "", none⟩, (machine.play served).2.print (.failure error.message))) := by
  intro served calls failed labels
  have course := Dialogue.course_hold Recording.answer machine served
  rw [← Recording.play, failed] at course
  have files : ∀ path found, ⟨.read path, .error (.failed found)⟩ ∈ calls →
      SingleLine found.message := by
    intro path found member
    obtain ⟨state, -, lost⟩ :=
      Dialogue.exists_of_mem_transcript (P := fun _ => True) (fun _ _ => id) trivial member
    change state.read path = _ at lost
    unfold Recording.read at lost
    split at lost
    · cases lost
    · exact FileTree.singleLine_of_read lost
  obtain ⟨taken, explained⟩ := reported_of_course course plain labels files
  have message := DriverError.singleLine_message taken
  refine ⟨message, explained, ⟨_, splitLines_failure message⟩, ?_⟩
  rintro rfl
  exact play_runWith failed

/-- A query that fails, and a target that is not built. -/
theorem failure_is_one_line_failed_query_and_target :
    let bazel := CommandLine.bazelOf elsewhere
    let request := Utf8.encode "\x7b\x7d"
    let asking : Recording := { runs := [{ finished := ⟨2, none, some "a\n\n b \n"⟩ }] }
    let unmapped :=
      DriverError.ambiguousSource "a.go" [] "error running bazel query: exit status 2: b"
    let event : BuildEvent := { id := { targetCompleted := some "//a" } }
    let building : Recording := { runs := [{ logChange := .write (encodeLog [event]) }] }
    let served := (bazel.serve (respondTo elsewhere ["//a"] request)).run
    ((asking.play (bazel.serve (respondTo elsewhere ["file=a.go"] request)).run).1 =
        .error (.reported unmapped) ∧
      (building.play served).1 = .error (.reported (.targetFailed "//a")) ∧
      ∃ label, TellsCompleted (encodeLog [event]) label) ∧
    (asking.play (CommandLine.runWith elsewhere ["file=a.go"] request)).2.diagnostics =
      "a\n\n b \n" ++ "gopackagesdriver: unable to map source file 'a.go' to bazel label: " ++
        "error running bazel query: exit status 2: b\n" ∧
    (building.play (CommandLine.runWith elsewhere ["//a"] request)).2.diagnostics =
      "gopackagesdriver: //a: target did not build successfully\n" := by
  intro bazel request asking unmapped event building served
  have plain : SingleLine elsewhere.sourceSuffix := by decide
  have refused : (asking.play (bazel.serve (respondTo elsewhere ["file=a.go"] request)).run).1 =
      .error (.reported unmapped) := rfl
  have nothing : readLogs ((bazel.serve (respondTo elsewhere ["file=a.go"] request)).run.transcript
      Recording.answer asking) = [] := by
    decide +kernel
  have unbuilt : (building.play served).1 = .error (.reported (.targetFailed "//a")) := by
    decide +kernel
  have single : readLogs (served.transcript Recording.answer building) = [encodeLog [event]] := by
    decide +kernel
  have told : (readLog (encodeLog [event])).events = [event] := by
    decide +kernel
  obtain ⟨-, -, -, shown⟩ := failure_is_one_line asking bazel elsewhere ["file=a.go"] request
    unmapped plain refused fun log label read => by
      have member := mem_readLogs read
      rw [nothing] at member
      cases member
  obtain ⟨-, -, -, reported⟩ := failure_is_one_line building bazel elsewhere ["//a"] request
    (.targetFailed "//a") plain unbuilt fun log label read => by
      obtain rfl := List.mem_singleton.1 (single ▸ mem_readLogs read)
      rintro ⟨other, member, completed⟩
      obtain rfl := List.mem_singleton.1 (told ▸ member)
      cases completed
      decide
  have completed : TellsCompleted (encodeLog [event]) "//a" := by
    refine ⟨event, ?_, rfl⟩
    rw [told]
    exact List.mem_cons_self
  refine ⟨⟨refused, unbuilt, "//a", completed⟩, ?_, ?_⟩
  · rw [shown rfl]
    decide +kernel
  · rw [reported rfl]
    decide +kernel

end Reported

end Session

end GoMetadata
