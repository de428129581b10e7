import GoMetadata.Bazel.Recording
import GoMetadata.CommandLine
import GoMetadata.Proofs.Bazel.Client
import GoMetadata.Proofs.Session.Calls

/-!
A run as the command line starts it. Whatever serves it, the build system is asked what the
arguments and the request call for, and the output is the response, or nothing where there is none.
There is none unless bazel was started and ended well, so none on a machine where nothing starts.
-/

namespace GoMetadata

theorem Dialogue.hold_through {Ask Ask' : Type} {Reply : Ask → Type} {Reply' : Ask' → Type}
    {α τ : Type} (answer : (question : Ask) → Dialogue Ask' Reply' (Reply question))
    (reply : τ → (question : Ask') → Reply' question × τ) (machine : τ)
    (dialogue : Dialogue Ask Reply α) :
    (dialogue.through answer).hold reply machine =
      dialogue.hold (fun machine question => (answer question).hold reply machine) machine := by
  induction dialogue generalizing machine with
  | done result => rfl
  | ask question next ih =>
    rw [through, hold_bind, ih]
    rfl

namespace CommandLine

variable {τ : Type} (reply : τ → (question : Host.Ask) → Host.Reply question × τ)

def serving (settings : Settings) (machine : τ) (question : BuildService.Ask) :
    BuildService.Reply question × τ :=
  ((bazelOf settings).answer question).hold reply machine

def settingsOf (given : Option Settings) (base : Path) (environment : Environment) :
    Dialogue Host.Ask Host.Reply (Except Defect Settings) :=
  match given with
  | some settings => return .ok settings
  | none => loadSettings base environment

def responseText : Except Failure String → String
  | .ok response => response
  | .error _ => ""

variable {given : Option Settings} {base : Path} {environment : Environment}
  {line arguments : List String}

theorem run_identifiers (request : Bytes)
    (identified : ofArguments line = .identifiers arguments) :
    run given base environment line request = (settingsOf given base environment).bind fun
      | .ok settings => runWith settings arguments request
      | .error defect => return ⟨1, "", some defect⟩ := by
  rw [run, identified]
  cases given with
  | none => rfl
  | some settings => rfl

theorem output_runWith (settings : Settings) (arguments : List String) (request : Bytes)
    (machine : τ) :
    ((runWith settings arguments request).hold reply machine).1.output =
      responseText ((Session.respondTo settings arguments request).run.hold
        (serving reply settings) machine).1 := by
  let session := Session.respondTo settings arguments request
  have served : ((bazelOf settings).serve session).run.hold reply machine =
      session.run.hold (serving reply settings) machine :=
    Dialogue.hold_through _ _ _ _
  rw [← served]
  change (((((bazelOf settings).serve session).run.bind _).hold reply machine).1 :
    Ending).output = _
  rw [Dialogue.hold_bind]
  cases (((bazelOf settings).serve session).run.hold reply machine).1 with
  | ok response => rfl
  | error failure => cases failure <;> rfl

end CommandLine

namespace Session

/-- What a run asks of the build system and how it ends, whatever the replies; and what the command
line outputs for it, on whatever machine. -/
theorem asks_and_output_of_respondTo {σ τ : Type}
    (answer : σ → (question : BuildService.Ask) → BuildService.Reply question × σ) (state : σ)
    (reply : τ → (question : Host.Ask) → Host.Reply question × τ) (machine : τ)
    (settings : Settings) (arguments : List String) (request : Bytes) :
    Asks settings arguments request
      (builderCalls ((respondTo settings arguments request).run.transcript answer state))
      ((respondTo settings arguments request).run.hold answer state).1 ∧
    ∀ given base environment line,
      CommandLine.ofArguments line = .identifiers arguments →
      ((CommandLine.settingsOf given base environment).hold reply machine).1 = .ok settings →
      ((CommandLine.run given base environment line request).hold reply machine).1.output =
        CommandLine.responseText ((respondTo settings arguments request).run.hold
          (CommandLine.serving reply settings)
          ((CommandLine.settingsOf given base environment).hold reply machine).2).1 := by
  constructor
  · exact asks_of_course (Dialogue.course_hold answer state _)
  · intro given base environment line identified found
    rw [CommandLine.run_identifiers request identified, Dialogue.hold_bind, found]
    exact CommandLine.output_runWith reply settings arguments request _

def elsewhere : Settings := { workspaceRoot := .ofText "/w" }

def queriesOnly (_ : Unit) : (question : BuildService.Ask) → BuildService.Reply question × Unit
  | .query path => (.ok ("//:" ++ path), ())
  | .build _ _ _ => (.error (.reported (.invocationFailed "build" (some 1) "")), ())
  | .read _ => (.error .nulCharacter, ())
  | .print _ => ((), ())

/-- The third file is not looked up after the second was not of the kind. -/
theorem asks_and_output_of_respondTo_other_kind :
    let arguments := ["file=a.go", "file=b.py", "file=c.go"]
    let settings := CommandLine.settingsOf (some elsewhere) {} []
    let request := Utf8.encode "\x7b\x7d"
    (CommandLine.ofArguments ("--" :: arguments) = .identifiers arguments ∧
      (settings.hold Recording.answer {}).1 = .ok elsewhere) ∧
    Asks elsewhere arguments request [⟨.query "a.go", .ok "//:a.go"⟩]
      (.error (.reported (.unsupportedFileKind "b.py" ".go"))) ∧
    ((CommandLine.run (some elsewhere) {} [] ("--" :: arguments) request).hold
      Recording.answer {}).1.output = "" := by
  intro arguments settings request
  have identified : CommandLine.ofArguments ("--" :: arguments) = .identifiers arguments := by
    decide +kernel
  have found : (settings.hold Recording.answer {}).1 = .ok elsewhere := rfl
  obtain ⟨asks, output⟩ :=
    asks_and_output_of_respondTo queriesOnly () Recording.answer {} elsewhere arguments request
  refine ⟨⟨identified, found⟩, asks, (output _ _ _ _ identified found).trans ?_⟩
  decide +kernel

end Session

/-! Machines on which nothing starts -/

namespace Recording

/-- Every start is refused: no recorded run is left, and what is played back instead is none. -/
structure StartsNothing (machine : Recording) : Prop where
  noRuns : machine.runs = []
  refuses : ∀ invocation, ∃ refusal, (machine.otherwise invocation).refusal = some refusal

theorem startsNothing_bare (files : FileTree) (cwd : Path) (searchPath : String) :
    (bare files cwd searchPath).StartsNothing :=
  ⟨rfl, fun _ => ⟨_, rfl⟩⟩

variable {machine : Recording}

theorem StartsNothing.start (nothing : machine.StartsNothing) (invocation : Invocation) :
    (∃ refusal, (machine.start invocation).1 = .error refusal) ∧
      (machine.start invocation).2.StartsNothing := by
  obtain ⟨refusal, refused⟩ := nothing.refuses invocation
  rw [Recording.start, nothing.noRuns]
  simp only [playBack, refused]
  exact ⟨⟨refusal, rfl⟩, nothing.noRuns, nothing.refuses⟩

theorem StartsNothing.answer (machine : Recording) (question : Host.Ask)
    (nothing : machine.StartsNothing) : (machine.answer question).2.StartsNothing := by
  cases question with
  | reserveLog directory =>
    change (machine.reserveLog directory).2.StartsNothing
    unfold Recording.reserveLog
    dsimp only
    split
    · exact nothing
    · exact ⟨nothing.noRuns, nothing.refuses⟩
  | start invocation => exact (nothing.start invocation).2
  | read path => exact nothing
  | removeFile path => exact ⟨nothing.noRuns, nothing.refuses⟩
  | print notice => exact ⟨nothing.noRuns, nothing.refuses⟩

end Recording

namespace Session

variable {settings : Settings} {arguments : List String} {request : Bytes} {response : String}

theorem Asks.exists_build_of_ok {calls : List Call}
    (asks : Asks settings arguments request calls (.ok response)) :
    ∃ group flags targets log, ⟨.build group flags targets, .ok log⟩ ∈ calls := by
  generalize same : (.ok response : Except Failure String) = outcome at asks
  cases asks with
  | @built decoded targets asked reply _ _ _ _ _ passedOn =>
    cases reply with
    | error failure => cases same.trans (passedOn failure rfl)
    | ok log => exact ⟨_, _, _, log, List.mem_append_right _ List.mem_cons_self⟩
  | _ => cases same

/-- A run has a response only where bazel was started and ended well. -/
theorem exists_start_of_course {bazel : Bazel} {calls : List Bazel.Call}
    (course : (bazel.serve (respondTo settings arguments request)).Course calls (.ok response)) :
    ∃ invocation finished, ⟨.start invocation, .ok finished⟩ ∈ calls ∧ finished.exitCode = 0 := by
  obtain ⟨asked, session, through⟩ := Dialogue.exists_of_course_through course
  obtain ⟨group, flags, targets, log, member⟩ := (asks_of_course session).exists_build_of_ok
  obtain ⟨part, answered, inside⟩ := through.exists_part (List.mem_filter.1 member).1
  have performs := Bazel.performs_of_course_build answered
  generalize same : (.ok log : Except Failure Bytes) = reply at performs
  cases performs with
  | built path right content =>
    exact ⟨_, _, inside (List.mem_cons_of_mem _ List.mem_cons_self), right⟩
  | _ => cases same

end Session

namespace CommandLine

theorem runWith_of_startsNothing {machine : Recording} (nothing : machine.StartsNothing)
    (settings : Settings) (arguments : List String) (request : Bytes) :
    let ending := (machine.play (runWith settings arguments request)).1
    ending.exitCode = 1 ∧ ending.output = "" := by
  intro ending
  let served := ((bazelOf settings).serve (Session.respondTo settings arguments request)).run
  have course := Dialogue.course_hold Recording.answer machine served
  have ended : ending = ((served.bind _).hold Recording.answer machine).1 := rfl
  rw [ended, Dialogue.hold_bind]
  cases outcome : (served.hold Recording.answer machine).1 with
  | ok response =>
    rw [outcome] at course
    obtain ⟨invocation, finished, member, -⟩ := Session.exists_start_of_course course
    obtain ⟨state, still, started⟩ :=
      Dialogue.exists_of_mem_transcript Recording.StartsNothing.answer nothing member
    obtain ⟨refusal, refused⟩ := (still.start invocation).1
    cases refused.symm.trans started
  | error failure => cases failure <;> exact ⟨rfl, rfl⟩

/-- Where no program starts, no run has a response to output, whatever it is asked. -/
theorem run_of_startsNothing {machine : Recording} (nothing : machine.StartsNothing)
    (given : Option Settings) (base : Path) (environment : Environment) (line : List String)
    (request : Bytes) (noHelp : ofArguments line ≠ .help) :
    let ending := (machine.play (run given base environment line request)).1
    ending.exitCode ≠ 0 ∧ ending.output = "" := by
  intro ending
  cases identified : ofArguments line with
  | help => exact absurd identified noHelp
  | invalid option =>
    have ended : ending = ⟨2, "", none⟩ := by
      change ((run given base environment line request).hold Recording.answer machine).1 = _
      rw [run, identified]
      rfl
    rw [ended]
    exact ⟨by decide, rfl⟩
  | identifiers arguments =>
    have ended : ending =
        ((run given base environment line request).hold Recording.answer machine).1 := rfl
    rw [ended, run_identifiers request identified, Dialogue.hold_bind]
    have still : ((settingsOf given base environment).hold Recording.answer
        machine).2.StartsNothing := Dialogue.hold_keeps Recording.StartsNothing.answer nothing
    cases ((settingsOf given base environment).hold Recording.answer machine).1 with
    | error defect => exact ⟨Nat.one_ne_zero, rfl⟩
    | ok settings =>
      obtain ⟨code, output⟩ := runWith_of_startsNothing still settings arguments request
      refine ⟨fun zero => ?_, output⟩
      rw [Recording.play] at code
      dsimp only at zero
      omega

end CommandLine

end GoMetadata
