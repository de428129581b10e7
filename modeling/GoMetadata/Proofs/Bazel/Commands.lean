import GoMetadata.Bazel.Recording
import GoMetadata.Proofs.Bazel.Client
import GoMetadata.Proofs.FileTree

/-!
Commands that bazel is given one after the other on a machine that plays back runs. Each is one
start, what comes of it is up to its run alone, and no file is left of it.
-/

namespace GoMetadata

def Bazel.performAll (bazel : Bazel) : List Command → Dialogue Host.Ask Host.Reply Unit
  | [] => return ()
  | command :: commands => (bazel.perform command).bind fun _ => bazel.performAll commands

namespace Recording

open Bazel (Command)

variable {bazel : Bazel} {machine after : Recording} {run : RecordedRun} {runs : List RecordedRun}

/-- A machine gives these replies in turn, and is another machine afterwards. -/
def Replies (machine : Recording) : List Bazel.Call → Recording → Prop
  | [], after => machine = after
  | ⟨question, reply⟩ :: calls, after =>
    (machine.answer question).1 = reply ∧ Replies (machine.answer question).2 calls after

theorem replies_play {α : Type} (machine : Recording) (dialogue : Dialogue Host.Ask Host.Reply α) :
    ∃ calls, dialogue.Course calls (machine.play dialogue).1 ∧
      machine.Replies calls (machine.play dialogue).2 := by
  induction dialogue generalizing machine with
  | done result => exact ⟨[], .done result, rfl⟩
  | ask question next ih =>
    obtain ⟨calls, course, replies⟩ := ih (machine.answer question).1 (machine.answer question).2
    exact ⟨⟨question, _⟩ :: calls, .ask course, rfl, replies⟩

def left? : LogChange → Option Bytes
  | .keep => some []
  | .write content => some content
  | .remove => none

theorem changeLog_cons (change : LogChange) (log : Path) (logs : List (Path × Bytes)) :
    changeLog change ((log, []) :: logs) = ((left? change).map (log, ·)).toList ++ logs := by
  cases change <;> rfl

theorem changeLog_keep (logs : List (Path × Bytes)) : changeLog .keep logs = logs := by
  cases logs <;> rfl

/-- What a run comes to by itself, with the error of looking for a file that is not there. -/
inductive Ends (lost : SystemError) (run : RecordedRun) :
    (command : Command) → Except Failure command.Result → Prop where
  | refused {command : Command} {error : SystemError}
      (refusal : run.refusal = some (.failed error)) :
      Ends lost run command
        (.error (.reported (.invocationFailed command.name (some 127) error.message)))
  | unasked {command : Command} (refusal : run.refusal = some .nulCharacter) :
      Ends lost run command (.error (.unreported .nulCharacter))
  | unanswered {expression : String} (started : run.refusal = none)
      (wrong : run.finished.exitCode ≠ 0) :
      Ends lost run (.query expression)
        (.error (.reported (.invocationFailed "query" (some run.finished.exitCode)
          (Text.strip (run.finished.errors.getD "")))))
  | answered {expression : String} (started : run.refusal = none)
      (right : run.finished.exitCode = 0) :
      Ends lost run (.query expression) (.ok (run.finished.output.getD ""))
  | failed {group : String} {flags targets : List String} (started : run.refusal = none)
      (wrong : run.finished.exitCode ≠ 0) :
      Ends lost run (.build group flags targets)
        (.error (.reported (.invocationFailed "build" (some run.finished.exitCode) "")))
  | built {group : String} {flags targets : List String} {content : Bytes}
      (started : run.refusal = none) (right : run.finished.exitCode = 0)
      (left : left? run.logChange = some content) :
      Ends lost run (.build group flags targets) (.ok content)
  | removed {group : String} {flags targets : List String} (started : run.refusal = none)
      (right : run.finished.exitCode = 0) (gone : left? run.logChange = none) :
      Ends lost run (.build group flags targets)
        (.error (.reported (.invocationFailed "build" (some 0)
          ("could not read build event file: " ++ lost.message))))

def heard (command : Command) (run : RecordedRun) : List Notice :=
  match command, run.refusal with
  | .query _, none => Bazel.heard run.finished
  | _, _ => []

def logAt (cwd : Path) (number : Nat) : Path :=
  (cwd.join Host.logDirectory).collapse.join (.ofText (Host.logName number))

theorem logPath_none (machine : Recording) :
    machine.logPath none = logAt machine.cwd machine.reserved :=
  rfl

theorem nul_not_mem_logName (number : Nat) : '\x00' ∉ (Host.logName number).toList := by
  rw [Host.logName, String.toList_append, String.toList_append, List.mem_append, List.mem_append]
  rintro ((before | inside) | after)
  · revert before
    decide
  · rw [Nat.toString_eq_repr, Nat.toList_repr] at inside
    have digit := Nat.isDigit_of_mem_toDigits (by decide) (by decide) inside
    revert digit
    decide
  · revert after
    decide

theorem hasNul_logAt (cwd : Path) (number : Nat) : (logAt cwd number).hasNul = false := by
  have rooted : cwd.join Host.logDirectory = Host.logDirectory := by
    rw [Path.join, if_pos (by decide +kernel)]
  rw [Bool.eq_false_iff, logAt, rooted]
  intro nul
  rcases Path.hasNul_of_join nul with wrong | nul
  · revert wrong
    decide +kernel
  · exact nul_not_mem_logName number (Path.contains_of_hasNul_ofText nul)

/-- Event logs that are still to come have names that no file has. -/
structure Fresh (machine : Recording) : Prop where
  unused : ∀ number, machine.reserved ≤ number →
    ∀ entry ∈ machine.logs, entry.1 ≠ logAt machine.cwd number
  missing : ∀ number, machine.reserved ≤ number →
    ∀ content, machine.files.read machine.cwd (logAt machine.cwd number) ≠ .ok content

theorem Fresh.exists_error (fresh : machine.Fresh) :
    ∃ lost, machine.files.read machine.cwd (machine.logPath none) = .error (.failed lost) := by
  rw [logPath_none]
  cases found : machine.files.read machine.cwd (logAt machine.cwd machine.reserved) with
  | ok content => exact absurd found (fresh.missing _ (Nat.le_refl _) content)
  | error refusal =>
    cases refusal with
    | failed lost => exact ⟨lost, rfl⟩
    | nulCharacter =>
      have nul := FileTree.read_eq_nulCharacter_iff.1 found
      rw [hasNul_logAt] at nul
      cases nul

/-- What a command changes of a machine: one start more, and its files as they were. -/
structure Serves (bazel : Bazel) (command : Command) (run : RecordedRun)
    (machine after : Recording) : Prop where
  logs : after.logs = machine.logs
  files : after.files = machine.files
  cwd : after.cwd = machine.cwd
  reserved : machine.reserved ≤ after.reserved
  runs : machine.runs = run :: after.runs
  invocations : after.invocations =
    machine.invocations ++ [bazel.invocation (machine.logPath none) command]
  notices : after.notices = machine.notices ++ heard command run

section Starting

variable {invocation : Invocation}

theorem of_start_error {refusal : Refusal} (recorded : machine.runs = run :: runs)
    (refused : (machine.start invocation).1 = .error refusal) :
    run.refusal = some refusal ∧ (machine.start invocation).2 =
      { machine with runs, invocations := machine.invocations ++ [invocation] } := by
  rw [start, recorded] at refused ⊢
  dsimp only [playBack] at refused ⊢
  cases reason : run.refusal with
  | none =>
    rw [reason] at refused
    cases refused
  | some other =>
    rw [reason] at refused
    cases refused
    exact ⟨rfl, rfl⟩

theorem of_start_ok {finished : Finished} (recorded : machine.runs = run :: runs)
    (started : (machine.start invocation).1 = .ok finished) :
    run.refusal = none ∧ run.finished = finished ∧ ∃ said,
      (machine.start invocation).2 =
        { machine with
          runs
          invocations := machine.invocations ++ [invocation]
          said := machine.said ++ said
          diagnostics := machine.diagnostics ++ said
          logs :=
            changeLog (if invocation.streams then run.logChange else .keep) machine.logs } := by
  rw [start, recorded] at started ⊢
  dsimp only [playBack] at started ⊢
  cases reason : run.refusal with
  | none =>
    rw [reason] at started
    cases started
    refine ⟨rfl, rfl, if invocation.streams then run.said else "", ?_⟩
    cases invocation.streams <;> rfl
  | some refusal =>
    rw [reason] at started
    cases started

end Starting

section Serving

variable {calls : List Bazel.Call} {lost : SystemError}

theorem ends_of_refusal {command : Command} {refusal : Refusal}
    (reason : run.refusal = some refusal) :
    Ends lost run command (.error (Bazel.unstarted command refusal)) := by
  cases refusal with
  | failed error => exact .refused reason
  | nulCharacter => exact .unasked reason

theorem heard_of_refusal (command : Command) {refusal : Refusal}
    (reason : run.refusal = some refusal) : heard command run = [] := by
  cases command <;> simp only [heard, reason]

theorem heard_query {expression : String} (started : run.refusal = none) :
    heard (.query expression) run = Bazel.heard run.finished := by
  simp only [heard, started]

theorem ends_answered {expression : String} (started : run.refusal = none) :
    Ends lost run (.query expression) (Bazel.answered run.finished) := by
  unfold Bazel.answered
  split
  next right => exact .answered started right
  next wrong => exact .unanswered started wrong

theorem of_replies_print {notices : List Notice}
    (replies : machine.Replies (notices.map fun notice => ⟨.print notice, ()⟩) after) :
    ∃ diagnostics,
      after = { machine with notices := machine.notices ++ notices, diagnostics } := by
  induction notices generalizing machine with
  | nil =>
    cases replies
    exact ⟨_, by rw [List.append_nil]⟩
  | cons notice notices ih =>
    obtain ⟨-, rest⟩ := replies
    obtain ⟨diagnostics, rfl⟩ := ih rest
    refine ⟨diagnostics, ?_⟩
    simp only [answer, print, List.append_assoc, List.singleton_append]

theorem invocation_query (log other : Path) (expression : String) :
    bazel.invocation log (.query expression) = bazel.invocation other (.query expression) :=
  rfl

theorem serves_query {expression : String} {reply : Except Failure String}
    (recorded : machine.runs = run :: runs)
    (performs : Bazel.Performs bazel (.query expression) calls reply)
    (replies : machine.Replies calls after) :
    Ends lost run (.query expression) reply ∧
      Serves bazel (.query expression) run machine after := by
  cases performs with
  | unasked log refusal =>
    obtain ⟨refused, same⟩ := replies
    obtain ⟨reason, state⟩ := of_start_error recorded refused
    obtain rfl := state.symm.trans same
    refine ⟨ends_of_refusal reason, rfl, rfl, rfl, Nat.le_refl _, recorded, ?_, ?_⟩
    · rw [invocation_query log]
    · rw [heard_of_refusal _ reason, List.append_nil]
  | asked log finished =>
    obtain ⟨ran, shown⟩ := replies
    obtain ⟨started, rfl, said, state⟩ := of_start_ok recorded ran
    obtain ⟨diagnostics, rfl⟩ := of_replies_print shown
    have state : (machine.answer (.start (bazel.invocation log (.query expression)))).2 = _ := state
    rw [state]
    refine ⟨ends_answered started, changeLog_keep _, rfl, rfl, Nat.le_refl _, recorded, ?_, ?_⟩
    · rw [invocation_query log]
    · rw [heard_query started]

variable {group : String} {flags targets : List String}

theorem lookup_eq_none {log : Path} {logs : List (Path × Bytes)}
    (unused : ∀ entry ∈ logs, entry.1 ≠ log) : logs.lookup log = none := by
  refine List.lookup_eq_none_iff.2 fun entry member => ?_
  exact bne_iff_ne.2 (unused entry member).symm

theorem filter_left {log : Path} {logs : List (Path × Bytes)}
    (unused : ∀ entry ∈ logs, entry.1 ≠ log) (content : Option Bytes) :
    ((content.map (log, ·)).toList ++ logs).filter (·.1 ≠ log) = logs := by
  have kept : logs.filter (·.1 ≠ log) = logs :=
    List.filter_eq_self.2 fun entry member => decide_eq_true (unused entry member)
  cases content with
  | some content => simpa using kept
  | none => exact kept

/-- A machine in the middle of a build, with what is in the event log. -/
structure Building (bazel : Bazel) (command : Command) (run : RecordedRun)
    (machine inside : Recording) (content : Option Bytes) : Prop where
  logs : inside.logs = ((content.map (machine.logPath none, ·)).toList ++ machine.logs)
  files : inside.files = machine.files
  cwd : inside.cwd = machine.cwd
  reserved : inside.reserved = machine.reserved + 1
  runs : machine.runs = run :: inside.runs
  invocations : inside.invocations =
    machine.invocations ++ [bazel.invocation (machine.logPath none) command]
  notices : inside.notices = machine.notices

theorem Building.read {inside : Recording} {command : Command} {content : Option Bytes}
    (building : Building bazel command run machine inside content)
    (unused : ∀ entry ∈ machine.logs, entry.1 ≠ machine.logPath none)
    (missing : machine.files.read machine.cwd (machine.logPath none) = .error (.failed lost)) :
    inside.read (machine.logPath none) = content.elim (.error (.failed lost)) .ok := by
  rw [Recording.read, building.logs, building.files, building.cwd]
  cases content with
  | some content => simp
  | none => simp [lookup_eq_none unused, missing]

theorem Building.serves {inside : Recording} {command : Command} {content : Option Bytes}
    (building : Building bazel command run machine inside content)
    (unused : ∀ entry ∈ machine.logs, entry.1 ≠ machine.logPath none)
    (silent : heard command run = []) :
    Serves bazel command run machine (inside.removeFile (machine.logPath none)) where
  logs := by
    rw [removeFile, building.logs]
    exact filter_left unused content
  files := building.files
  cwd := building.cwd
  reserved := by
    rw [removeFile, building.reserved]
    exact Nat.le_succ _
  runs := building.runs
  invocations := building.invocations
  notices := by rw [removeFile, building.notices, silent, List.append_nil]

def withLog (machine : Recording) : Recording :=
  (machine.answer (.reserveLog none)).2

theorem building_of_start_error {refusal : Refusal} {command : Command}
    (recorded : machine.runs = run :: runs)
    (refused : (machine.withLog.start (bazel.invocation (machine.logPath none) command)).1 =
      .error refusal) :
    run.refusal = some refusal ∧ Building bazel command run machine
      (machine.withLog.start (bazel.invocation (machine.logPath none) command)).2 (some []) := by
  have recorded : machine.withLog.runs = run :: runs := recorded
  obtain ⟨reason, state⟩ := of_start_error recorded refused
  rw [state]
  exact ⟨reason, rfl, rfl, rfl, rfl, recorded, rfl, rfl⟩

theorem building_of_start_ok {finished : Finished} (recorded : machine.runs = run :: runs)
    (started : (machine.withLog.start
      (bazel.invocation (machine.logPath none) (.build group flags targets))).1 = .ok finished) :
    run.refusal = none ∧ run.finished = finished ∧
      Building bazel (.build group flags targets) run machine (machine.withLog.start
        (bazel.invocation (machine.logPath none) (.build group flags targets))).2
        (left? run.logChange) := by
  have recorded : machine.withLog.runs = run :: runs := recorded
  obtain ⟨none, same, said, state⟩ := of_start_ok recorded started
  rw [state]
  exact ⟨none, same, changeLog_cons _ _ _, rfl, rfl, rfl, recorded, rfl, rfl⟩

theorem of_replies_reserved {log : Path} {invocation : Invocation}
    {started : Except Refusal Finished}
    (replies : machine.Replies
      (⟨.reserveLog none, .ok log⟩ :: ⟨.start invocation, started⟩ :: calls) after) :
    machine.logPath none = log ∧ (machine.withLog.start invocation).1 = started ∧
      (machine.withLog.start invocation).2.Replies calls after := by
  obtain ⟨reserved, ran, rest⟩ := replies
  exact ⟨Except.ok.inj reserved, ran, rest⟩

theorem of_replies_removeFile {log : Path}
    (replies : machine.Replies [⟨.removeFile log, ()⟩] after) : after = machine.removeFile log :=
  replies.2.symm

theorem serves_build {reply : Except Failure Bytes} (fresh : machine.Fresh)
    (missing : machine.files.read machine.cwd (machine.logPath none) = .error (.failed lost))
    (recorded : machine.runs = run :: runs)
    (performs : Bazel.Performs bazel (.build group flags targets) calls reply)
    (replies : machine.Replies calls after) :
    Ends lost run (.build group flags targets) reply ∧
      Serves bazel (.build group flags targets) run machine after := by
  have unused := fresh.unused machine.reserved (Nat.le_refl _)
  cases performs with
  | unreserved refusal =>
    obtain ⟨wrong, -⟩ := replies
    cases wrong
  | unbuilt log refusal =>
    obtain ⟨rfl, refused, rest⟩ := of_replies_reserved replies
    obtain rfl := of_replies_removeFile rest
    obtain ⟨reason, building⟩ := building_of_start_error recorded refused
    exact ⟨ends_of_refusal reason, building.serves unused rfl⟩
  | failed log wrong =>
    obtain ⟨rfl, ran, rest⟩ := of_replies_reserved replies
    obtain rfl := of_replies_removeFile rest
    obtain ⟨started, rfl, building⟩ := building_of_start_ok recorded ran
    exact ⟨.failed started wrong, building.serves unused rfl⟩
  | built log right content =>
    obtain ⟨rfl, ran, found, rest⟩ := of_replies_reserved replies
    obtain rfl := of_replies_removeFile rest
    obtain ⟨started, rfl, building⟩ := building_of_start_ok recorded ran
    refine ⟨?_, building.serves unused rfl⟩
    have found : content = (left? run.logChange).elim (.error (.failed lost)) .ok :=
      found.symm.trans (building.read unused missing)
    rw [found]
    cases left : left? run.logChange with
    | some bytes => exact .built started right left
    | none => exact .removed started right left

theorem Serves.fresh {command : Command} (fresh : machine.Fresh)
    (serves : Serves bazel command run machine after) : after.Fresh := by
  have later := serves.reserved
  constructor
  · rw [serves.logs, serves.cwd]
    exact fun number reserved => fresh.unused number (Nat.le_trans later reserved)
  · rw [serves.files, serves.cwd]
    exact fun number reserved => fresh.missing number (Nat.le_trans later reserved)

theorem serves_perform (fresh : machine.Fresh) (recorded : machine.runs = run :: runs)
    (missing : machine.files.read machine.cwd (machine.logPath none) = .error (.failed lost))
    (command : Command) :
    Ends lost run command (machine.play (bazel.perform command)).1 ∧
      Serves bazel command run machine (machine.play (bazel.perform command)).2 := by
  obtain ⟨calls, course, replies⟩ := replies_play machine (bazel.perform command)
  have performs := Bazel.performs_of_course course
  cases command with
  | query expression => exact serves_query recorded performs replies
  | build group flags targets => exact serves_build fresh missing recorded performs replies

end Serving

section Sequences

/-- What commands change of a machine: one start more for each, and its files as they were. -/
structure ServesAll (bazel : Bazel) (commands : List Command) (played : List RecordedRun)
    (machine after : Recording) : Prop where
  fresh : after.Fresh
  logs : after.logs = machine.logs
  files : after.files = machine.files
  cwd : after.cwd = machine.cwd
  runs : machine.runs = played ++ after.runs
  invocations : ∃ logs : List Path, logs.length = commands.length ∧
    after.invocations = machine.invocations ++ List.zipWith bazel.invocation logs commands
  notices : after.notices = machine.notices ++ (List.zipWith heard commands played).flatten

theorem servesAll_performAll (fresh : machine.Fresh) {commands : List Command}
    {played rest : List RecordedRun} (recorded : machine.runs = played ++ rest)
    (paired : played.length = commands.length) :
    ServesAll bazel commands played machine (machine.play (bazel.performAll commands)).2 := by
  induction commands generalizing machine played with
  | nil =>
    obtain rfl := List.length_eq_zero_iff.1 paired
    have none : machine.invocations = machine.invocations ++ [] := (List.append_nil _).symm
    exact ⟨fresh, rfl, rfl, rfl, rfl, ⟨[], rfl, none⟩, (List.append_nil _).symm⟩
  | cons command commands ih =>
    obtain ⟨run, played, rfl⟩ := List.exists_cons_of_length_eq_add_one paired
    obtain ⟨lost, missing⟩ := fresh.exists_error
    have serves : Serves bazel command run machine (machine.play (bazel.perform command)).2 :=
      (serves_perform fresh recorded missing command).2
    have split : (machine.play (bazel.performAll (command :: commands))).2 =
        ((machine.play (bazel.perform command)).2.play (bazel.performAll commands)).2 :=
      congrArg Prod.snd (Dialogue.hold_bind answer machine _ _)
    rw [split]
    generalize (machine.play (bazel.perform command)).2 = next at serves
    have recorded : next.runs = played ++ rest :=
      (List.cons.inj (serves.runs.symm.trans recorded)).2
    have all := ih (serves.fresh fresh) recorded (Nat.succ.inj paired)
    obtain ⟨logs, same, invocations⟩ := all.invocations
    refine ⟨all.fresh, all.logs.trans serves.logs, all.files.trans serves.files,
      all.cwd.trans serves.cwd, ?_, ⟨machine.logPath none :: logs, ?_, ?_⟩, ?_⟩
    · rw [serves.runs, all.runs]
      rfl
    · rw [List.length_cons, List.length_cons, same]
    · rw [invocations, serves.invocations, List.append_assoc]
      rfl
    · rw [all.notices, serves.notices, List.append_assoc]
      rfl

theorem Ends.unique {lost : SystemError} {command : Command}
    {reply other : Except Failure command.Result} (first : Ends lost run command reply)
    (second : Ends lost run command other) : reply = other := by
  cases first <;> cases second <;> simp_all

end Sequences

/-- Whatever the replies, a command asks for one file at most, its event log, and removes it in the
end. And whatever was done before, a command is one start, what comes of it is up to its run alone,
and no file is left of it. -/
theorem commands_stand_alone (bazel : Bazel) :
    (∀ command calls reply, (bazel.perform command).Course calls reply →
      Bazel.LeavesFiles calls ∨ Bazel.KeepsToLog calls) ∧
    ∀ (machine : Recording) (commands : List Command) (command : Command)
      (earlier rest : List RecordedRun) (run : RecordedRun), machine.Fresh →
      machine.runs = earlier ++ run :: rest → earlier.length = commands.length →
      let called := (machine.play (bazel.performAll commands)).2
      let log := called.logPath none
      let ending := called.play (bazel.perform command)
      (∃ lost, machine.files.read machine.cwd log = .error (.failed lost) ∧
        ending.2.read log = .error (.failed lost) ∧
        ∀ reply, ending.1 = reply ↔ Ends lost run command reply) ∧
      ending.2.logs = machine.logs ∧ ending.2.files = machine.files ∧
      ending.2.invocations = called.invocations ++ [bazel.invocation log command] ∧
      called.invocations.length = machine.invocations.length + commands.length ∧
      ending.2.notices = machine.notices ++
        (List.zipWith heard (commands ++ [command]) (earlier ++ [run])).flatten ∧
      ending.2.runs = rest := by
  constructor
  · intro command calls reply course
    exact (Bazel.performs_of_course course).leavesFiles_or_keepsToLog
  intro machine commands command earlier rest run fresh recorded paired called log ending
  have all : ServesAll bazel commands earlier machine called :=
    servesAll_performAll fresh recorded paired
  obtain ⟨logs, paths, invocations⟩ := all.invocations
  obtain ⟨lost, missing⟩ := all.fresh.exists_error
  have remaining : called.runs = run :: rest :=
    List.append_cancel_left (all.runs.symm.trans recorded)
  obtain ⟨ends, serves⟩ := serves_perform all.fresh remaining missing command
  have unused : ∀ entry ∈ called.logs, entry.1 ≠ log :=
    all.fresh.unused called.reserved (Nat.le_refl _)
  refine ⟨⟨lost, ?_, ?_, fun reply => ⟨?_, ends.unique⟩⟩, serves.logs.trans all.logs,
    serves.files.trans all.files, serves.invocations, ?_, ?_, ?_⟩
  · rw [← all.files, ← all.cwd]
    exact missing
  · rw [Recording.read, serves.logs, lookup_eq_none unused, serves.files, serves.cwd]
    exact missing
  · rintro rfl
    exact ends
  · rw [invocations, List.length_append, List.length_zipWith, paths, Nat.min_self]
  · rw [serves.notices, all.notices, List.append_assoc, List.zipWith_append paired.symm,
      List.flatten_append]
    simp
  · exact (List.cons.inj (serves.runs.symm.trans remaining)).2

theorem fresh_empty (runs : List RecordedRun) : Fresh { runs } where
  unused := nofun
  missing := fun _ _ content => FileTree.read_empty_ne_ok _ _ content

/-- A build returns what its run left, after a query that failed and was heard. -/
theorem commands_stand_alone_after_failed_query :
    let machine : Recording :=
      { runs := [{ finished := ⟨2, none, some "no\n"⟩ }, { logChange := .write [1, 2] }] }
    let called := (machine.play (Bazel.performAll {} [.query "a.go"])).2
    let ending := called.play (Bazel.perform {} (.build "g" [] ["//a"]))
    machine.Fresh ∧ ending.1 = .ok [1, 2] ∧ ending.2.logs = [] ∧
      ending.2.notices = [.forwarded "no\n"] := by
  intro machine
  have fresh : machine.Fresh := fresh_empty _
  have recorded : machine.runs =
      [{ finished := ⟨2, none, some "no\n"⟩ }] ++ { logChange := .write [1, 2] } :: [] := rfl
  obtain ⟨-, alone⟩ := commands_stand_alone {}
  obtain ⟨⟨lost, -, -, ends⟩, logs, -, -, -, notices, -⟩ :=
    alone machine [.query "a.go"] (.build "g" [] ["//a"]) _ _ _ fresh recorded rfl
  refine ⟨fresh, (ends (.ok [1, 2])).2 (.built rfl rfl rfl), logs, notices.trans ?_⟩
  decide +kernel

end Recording

end GoMetadata
