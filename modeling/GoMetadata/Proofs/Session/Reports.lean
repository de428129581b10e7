import GoMetadata.Proofs.FileSet.Accumulation
import GoMetadata.Proofs.Messages
import GoMetadata.Proofs.Package.Unusable
import GoMetadata.Proofs.Session.Calls

/-!
What a run reports when it fails. Each stage takes over into its errors what is on one line: texts
that it quotes, its own words, and what the surroundings say, of which the errors of the build
system and of files are on one line themselves.
-/

namespace GoMetadata

namespace Exchange

variable {Ask : Type} {Reply : Ask → Type} {α β : Type}

/-- Where all replies are as given, whatever is reported is as wanted. -/
def Reports (given : Sigma Reply → Prop) (wanted : DriverError → Prop)
    (exchange : Exchange Ask Reply α) : Prop :=
  ∀ calls error, exchange.Course calls (.error (.reported error)) →
    (∀ call ∈ calls, given call) → wanted error

variable {given : Sigma Reply → Prop} {wanted : DriverError → Prop}

theorem reports_ofResult {result : Except Failure α}
    (known : ∀ error, result = .error (.reported error) → wanted error) :
    Reports given wanted (ofResult result : Exchange Ask Reply α) := by
  intro calls error course _
  obtain ⟨-, failed⟩ := course_ofResult course
  exact known error failed.symm

theorem reports_pure (value : α) : Reports given wanted (pure value : Exchange Ask Reply α) :=
  reports_ofResult nofun

theorem Reports.bind {exchange : Exchange Ask Reply α} {next : α → Exchange Ask Reply β}
    (first : Reports given wanted exchange) (second : ∀ value, Reports given wanted (next value)) :
    Reports given wanted (exchange >>= next) := by
  intro calls error course replied
  rcases course_bind course with ⟨failure, failed, same⟩ | ⟨value, before, after, -, rest, rfl⟩
  · cases same
    exact first calls error failed replied
  · exact second value after error rest fun call member =>
      replied call (List.mem_append_right before member)

theorem reports_put_bind {question : Ask} {next : Reply question → Exchange Ask Reply β}
    (replied : ∀ reply, given ⟨question, reply⟩ → Reports given wanted (next reply)) :
    Reports given wanted (put question >>= next) := by
  intro calls error course all
  obtain ⟨reply, after, rest, rfl⟩ := course_put_bind course
  obtain ⟨first, others⟩ := List.forall_mem_cons.1 all
  exact replied reply first after error rest others

theorem reports_put (question : Ask) :
    Reports given wanted (put question : Exchange Ask Reply (Reply question)) := by
  intro calls error course _
  obtain ⟨reply, -, wrong⟩ := course_put course
  cases wrong

theorem reports_mapM {step : α → Exchange Ask Reply β}
    (single : ∀ value, Reports given wanted (step value)) (values : List α) :
    Reports given wanted (values.mapM step) := by
  induction values with
  | nil => exact reports_pure []
  | cons value values ih =>
    rw [List.mapM_cons]
    exact (single value).bind fun first => ih.bind fun rest => reports_pure (first :: rest)

end Exchange

open Text (SingleLine)

def TellsCompleted (log : Bytes) (label : String) : Prop :=
  ∃ event ∈ (readLog log).events, event.id.targetCompleted = some label

namespace FileSetGraph

theorem exists_of_observeAll_error {group : String} {graph : FileSetGraph}
    {events : List BuildEvent} {halted : Halted}
    (stopped : observeAll group graph events = .error halted) :
    ∃ event ∈ events, ∃ label, event.id.targetCompleted = some label ∧
      halted.error = .targetFailed label := by
  induction events generalizing graph with
  | nil => cases stopped
  | cons event events ih =>
    cases failed : failedTarget? event with
    | some label =>
      rw [observeAll_cons_of_failed failed] at stopped
      cases stopped
      rw [failedTarget?_eq, Option.ite_none_right_eq_some] at failed
      exact ⟨event, List.mem_cons_self, label, failed.2, rfl⟩
    | none =>
      rw [observeAll_cons_of_built failed] at stopped
      obtain ⟨other, member, told⟩ := ih stopped
      exact ⟨other, List.mem_cons_of_mem event member, told⟩

theorem isPlain_of_observeLog {group : String} {log : Bytes} {halted : Halted}
    (plain : ∀ label, TellsCompleted log label → SingleLine label)
    (stopped : observeLog group {} log = .error halted) : halted.error.IsPlain := by
  rw [observeLog, observeLogFrom_eq] at stopped
  split at stopped
  next failed =>
    cases stopped
    obtain ⟨event, member, label, completed, same⟩ := exists_of_observeAll_error failed
    rw [same]
    exact plain label ⟨event, member, completed⟩
  · split at stopped
    · cases stopped
    next fault place broken =>
      cases stopped
      exact fault.singleLine_reason

end FileSetGraph

theorem Descriptor.Unusable.singleLine {content : Except Refusal Bytes} {reason : String}
    (unusable : Descriptor.Unusable content reason)
    (plain : ∀ error, content = .error (.failed error) → SingleLine error.message) :
    SingleLine reason := by
  cases unusable with
  | unreadable error => exact plain error rfl
  | @notText bytes fault broken => exact fault.singleLine_message
  | notJson refused => exact Json.singleLine_complaintMessage _ _ _
  | notObject parsed other => decide
  | @invalid text entries faults parsed checked =>
    exact Checked.singleLine_summary faults (by decide)

theorem Request.isPlain_of_decode {bytes : Bytes} {error : DriverError}
    (failed : Request.decode bytes = .error (.reported error)) : error.IsPlain := by
  unfold Request.decode at failed
  split at failed
  next fault broken =>
    cases failed
    exact .append (by decide) fault.singleLine_message
  · unfold Request.ofText at failed
    split at failed
    · cases failed
    split at failed
    · cases failed
    · cases failed
      exact Json.singleLine_complaintMessage _ _ _
    · split at failed
      · cases failed
      · cases failed
        exact Checked.singleLine_summary _ (by decide)
    next value =>
      cases failed
      exact .append (by decide) (Json.singleLine_kind _)

namespace Session

open Exchange (Reports reports_ofResult reports_pure reports_put_bind reports_put reports_mapM)

/-- What the surroundings say is fit for one line: errors, and the labels of completed targets. -/
def IsTame : Call → Prop
  | ⟨.query _, .error (.reported error)⟩ => SingleLine error.message
  | ⟨.build _ _ _, .error (.reported error)⟩ => error.IsPlain
  | ⟨.build _ _ _, .ok log⟩ => ∀ label, TellsCompleted log label → SingleLine label
  | ⟨.read _, .error (.failed error)⟩ => SingleLine error.message
  | _ => True

section Stages

variable {settings : Settings}

theorem reports_resolve {suffix : String} (plain : SingleLine suffix) (identifier : Identifier) :
    Reports IsTame DriverError.IsPlain (resolve suffix identifier) := by
  cases identifier with
  | label text => exact reports_pure text
  | pattern expression =>
    refine reports_ofResult fun error failed => ?_
    cases failed
    exact trivial
  | file path =>
    by_cases source : hasEnding suffix path = true
    · rw [resolve_file path source]
      refine reports_put_bind fun reply tame => reports_ofResult fun error failed => ?_
      cases reply with
      | ok answer =>
        unfold targetOfReply Identifier.targetOfAnswer at failed
        dsimp only at failed
        split at failed
        · cases failed
        · cases failed
          exact (by decide : SingleLine "")
      | error failure =>
        cases failure with
        | reported error =>
          cases failed
          exact tame
        | unreported defect => cases failed
    · rw [resolve, if_neg source]
      refine reports_ofResult fun error failed => ?_
      cases failed
      exact plain

theorem reports_resolveAll {suffix : String} (plain : SingleLine suffix)
    (identifiers : List Identifier) :
    Reports IsTame DriverError.IsPlain (resolveAll suffix identifiers) := by
  unfold resolveAll
  split
  · refine reports_ofResult fun error failed => ?_
    cases failed
    exact trivial
  · split
    · refine reports_ofResult fun error failed => ?_
      cases failed
      exact trivial
    · exact reports_mapM (reports_resolve plain) identifiers

theorem reports_tell (notice : Notice) :
    Reports IsTame DriverError.IsPlain (tell settings notice) := by
  unfold tell
  split
  · exact reports_put _
  · exact reports_pure ()

theorem reports_loadDescriptor (path : Path) :
    Reports IsTame DriverError.IsPlain (loadDescriptor path) := by
  refine reports_put_bind fun content tame => reports_ofResult fun error failed => ?_
  rcases Descriptor.ofFile_eq_error_iff.1 failed with
    ⟨reason, unusable, same⟩ | ⟨defect, -, wrong⟩
  · cases same
    refine unusable.singleLine fun found unreadable => ?_
    rw [unreadable] at tame
    exact tame
  · cases wrong

theorem reports_conclude {targets : List String} {log : Bytes}
    (plain : ∀ label, TellsCompleted log label → SingleLine label) :
    Reports IsTame DriverError.IsPlain (conclude settings targets log) := by
  have graph : Reports IsTame DriverError.IsPlain (graphOfLog settings.outputGroup log) := by
    refine reports_ofResult fun error failed => ?_
    cases observed : FileSetGraph.observeLog settings.outputGroup {} log with
    | ok graph =>
      rw [observed] at failed
      cases failed
    | error halted =>
      rw [observed] at failed
      cases failed
      exact FileSetGraph.isPlain_of_observeLog plain observed
  have loaded (names : List String) : Reports IsTame DriverError.IsPlain
      (Descriptor.loadAll loadDescriptor settings.workspaceRoot names) :=
    (reports_mapM (fun name => reports_loadDescriptor _) _).bind fun found => reports_pure _
  exact graph.bind fun _ => (reports_tell _).bind fun _ => (loaded _).bind fun _ =>
    (reports_tell _).bind fun _ => reports_pure _

theorem reports_announce (flags targets : List String) :
    Reports IsTame DriverError.IsPlain (announce settings flags targets) := by
  refine (reports_tell _).bind fun _ => ?_
  split
  · exact reports_tell _
  · exact reports_pure ()

theorem reports_respond (request : Request) (targets : List String) :
    Reports IsTame DriverError.IsPlain (respond settings request targets) := by
  rw [respond_eq]
  refine (reports_announce _ _).bind fun _ => ?_
  rw [build, bind_assoc]
  refine reports_put_bind fun reply tame => ?_
  cases reply with
  | ok log => exact reports_conclude tame
  | error failure =>
    refine reports_ofResult fun error failed => ?_
    cases failed
    exact tame

theorem reports_respondTo (plain : SingleLine settings.sourceSuffix) (arguments : List String)
    (request : Bytes) :
    Reports IsTame DriverError.IsPlain (respondTo settings arguments request) := by
  have identified : Reports IsTame DriverError.IsPlain
      (Exchange.ofResult ((Identifier.ofArguments arguments).mapError .reported) :
        Session (List Identifier)) := by
    refine reports_ofResult fun error failed => ?_
    unfold Identifier.ofArguments at failed
    split at failed
    · cases failed
      exact trivial
    · cases failed
  have written (response : Response) : Reports IsTame DriverError.IsPlain
      (Exchange.ofResult (response.encode.mapError .reported) : Session String) := by
    refine reports_ofResult fun error failed => ?_
    unfold Response.encode encodeResponse at failed
    split at failed
    · cases failed
    · cases failed
      exact (by decide : SingleLine "Out of range float values are not JSON compliant")
  exact identified.bind fun identifiers =>
    (reports_ofResult fun error => Request.isPlain_of_decode).bind fun decoded =>
      (reports_resolveAll plain identifiers).bind fun targets =>
        (reports_respond decoded targets).bind written

end Stages

end Session

end GoMetadata
