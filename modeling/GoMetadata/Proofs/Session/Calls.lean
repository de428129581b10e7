import GoMetadata.CommandLine
import GoMetadata.Proofs.Session.Course

/-!
What a run asks of the build system, whatever this replies. Nothing is asked before the arguments
and the request have been found in order. Then every source file among the arguments is looked up in
turn, until one cannot be resolved, and only if all are resolved there is one build, after which
nothing more is asked.
-/

namespace GoMetadata

namespace Identifier

theorem after?_eq_some_iff {mark text rest : String} :
    after? mark text = some rest ↔ text = mark ++ rest := by
  constructor
  · exact fun found => (append_of_after? found).symm
  · rintro rfl
    have marked : mark.toList.isPrefixOf (mark ++ rest).toList = true := by
      rw [String.toList_append]
      exact List.isPrefixOf_iff_prefix.2 (List.prefix_append _ _)
    rw [after?, if_pos marked, String.toList_append, List.drop_left, String.ofList_toList]

theorem ofText_eq_file_iff {text path : String} :
    ofText text = .file path ↔ text = fileMark ++ path := by
  rw [← after?_eq_some_iff]
  unfold ofText
  split
  next found => rw [found, Option.some_inj, file.injEq]
  next none =>
    rw [none]
    split <;> simp

theorem after?_fileMark_of_pattern (expression : String) :
    after? fileMark (patternMark ++ expression) = none := by
  rw [after?, String.toList_append]
  rfl

theorem ofText_eq_pattern_iff {text expression : String} :
    ofText text = .pattern expression ↔ text = patternMark ++ expression := by
  constructor
  · intro read
    rw [← text_ofText text, read]
    rfl
  · rintro rfl
    rw [ofText, after?_fileMark_of_pattern, after?_eq_some_iff.2 rfl]

theorem of_ofText_eq_label {text label : String} (read : ofText text = .label label) :
    label = text ∧ ∀ path, text ≠ fileMark ++ path := by
  constructor
  · rw [← text_ofText text, read]
    rfl
  · intro path marked
    rw [ofText_eq_file_iff.2 marked] at read
    cases read

end Identifier

namespace Session

abbrev Call := Sigma BuildService.Reply

def builderCalls (calls : List Call) : List Call :=
  calls.filter (·.1.isForBuilder)

theorem builderCalls_append (before after : List Call) :
    builderCalls (before ++ after) = builderCalls before ++ builderCalls after :=
  List.filter_append _ _

def IsPattern (argument : String) : Prop :=
  ∃ expression, argument = Identifier.patternMark ++ expression

def targetOfReply (path : String) : Except Failure String → Except Failure String
  | .ok answer => (Identifier.targetOfAnswer path answer).mapError .reported
  | .error (.reported error) => .error (.reported (.ambiguousSource path [] error.message))
  | .error (.unreported defect) => .error (.unreported defect)

/-- How one argument is resolved: what is asked for it, and the target or the failure. -/
inductive Resolves (suffix : String) : String → List Call → Except Failure String → Prop where
  | label {text : String} (bare : ∀ path, text ≠ Identifier.fileMark ++ path) :
      Resolves suffix text [] (.ok text)
  | otherKind {path : String} (other : hasEnding suffix path = false) :
      Resolves suffix (Identifier.fileMark ++ path) []
        (.error (.reported (.unsupportedFileKind path suffix)))
  | lookedUp {path : String} (source : hasEnding suffix path = true)
      (reply : Except Failure String) :
      Resolves suffix (Identifier.fileMark ++ path) [⟨.query path, reply⟩]
        (targetOfReply path reply)

inductive ResolvesAll (suffix : String) : List String → List Call → List String → Prop where
  | nil : ResolvesAll suffix [] [] []
  | cons {argument target : String} {arguments targets : List String} {asked more : List Call}
      (first : Resolves suffix argument asked (.ok target))
      (rest : ResolvesAll suffix arguments more targets) :
      ResolvesAll suffix (argument :: arguments) (asked ++ more) (target :: targets)

/-- What a run asks of the build system, and its outcome. -/
inductive Asks (settings : Settings) (arguments : List String) (request : Bytes) :
    List Call → Except Failure String → Prop where
  | noArguments (none : arguments = []) :
      Asks settings arguments request [] (.error (.reported .noTargets))
  | badRequest {failure : Failure} (some : arguments ≠ [])
      (undecodable : Request.decode request = .error failure) :
      Asks settings arguments request [] (.error failure)
  | pattern {decoded : Request} {before after : List String} {argument : String}
      (decodable : Request.decode request = .ok decoded)
      (split : arguments = before ++ argument :: after) (pattern : IsPattern argument)
      (first : ∀ other ∈ before, ¬IsPattern other) :
      Asks settings arguments request [] (.error (.reported (.unsupportedQuery argument)))
  | unresolved {decoded : Request} {before after targets : List String} {argument : String}
      {asked last : List Call} {failure : Failure}
      (decodable : Request.decode request = .ok decoded)
      (noPattern : ∀ argument ∈ arguments, ¬IsPattern argument)
      (split : arguments = before ++ argument :: after)
      (resolved : ResolvesAll settings.sourceSuffix before asked targets)
      (failed : Resolves settings.sourceSuffix argument last (.error failure)) :
      Asks settings arguments request (asked ++ last) (.error failure)
  | built {decoded : Request} {targets : List String} {asked : List Call}
      {reply : Except Failure Bytes} {outcome : Except Failure String} (some : arguments ≠ [])
      (decodable : Request.decode request = .ok decoded)
      (noPattern : ∀ argument ∈ arguments, ¬IsPattern argument)
      (resolved : ResolvesAll settings.sourceSuffix arguments asked targets)
      (passedOn : ∀ failure, reply = .error failure → outcome = .error failure) :
      Asks settings arguments request
        (asked ++ [⟨.build settings.outputGroup (settings.buildFlags ++ decoded.buildFlags) targets,
          reply⟩]) outcome

section Resolution

variable {suffix argument : String} {calls : List Call}

theorem Resolves.builderCalls_eq {outcome : Except Failure String}
    (resolves : Resolves suffix argument calls outcome) : builderCalls calls = calls := by
  cases resolves <;> rfl

theorem resolve_file (path : String) (source : hasEnding suffix path = true) :
    resolve suffix (.file path) =
      tryQuery path >>= fun reply => Exchange.ofResult (targetOfReply path reply) := by
  rw [resolve, if_pos source]
  apply bind_congr
  intro reply
  cases reply with
  | ok answer => rfl
  | error failure => cases failure <;> rfl

theorem resolves_of_course {outcome : Except Failure String} (plain : ¬IsPattern argument)
    (course : Exchange.Course (resolve suffix (Identifier.ofText argument)) calls outcome) :
    Resolves suffix argument calls outcome := by
  cases read : Identifier.ofText argument with
  | label text =>
    obtain ⟨rfl, bare⟩ := Identifier.of_ofText_eq_label read
    rw [read] at course
    obtain ⟨rfl, rfl⟩ := Exchange.course_ofResult course
    exact .label bare
  | pattern expression => exact absurd ⟨expression, Identifier.ofText_eq_pattern_iff.1 read⟩ plain
  | file path =>
    rw [Identifier.ofText_eq_file_iff.1 read]
    rw [read] at course
    by_cases source : hasEnding suffix path = true
    · rw [resolve_file path source] at course
      obtain ⟨reply, after, rest, rfl⟩ := Exchange.course_put_bind course
      obtain ⟨rfl, rfl⟩ := Exchange.course_ofResult rest
      exact .lookedUp source reply
    · rw [resolve, if_neg source] at course
      obtain ⟨rfl, rfl⟩ := Exchange.course_ofResult course
      exact .otherKind (eq_false_of_ne_true source)

theorem ResolvesAll.builderCalls_eq {arguments targets : List String}
    (resolved : ResolvesAll suffix arguments calls targets) : builderCalls calls = calls := by
  induction resolved with
  | nil => rfl
  | cons first rest ih => rw [builderCalls_append, first.builderCalls_eq, ih]

theorem resolvesAll_of_course {arguments : List String} {outcome : Except Failure (List String)}
    (plain : ∀ argument ∈ arguments, ¬IsPattern argument)
    (course : Exchange.Course ((arguments.map Identifier.ofText).mapM (resolve suffix)) calls
      outcome) :
    (∃ targets, outcome = .ok targets ∧ ResolvesAll suffix arguments calls targets) ∨
      ∃ before argument after asked targets last failure,
        arguments = before ++ argument :: after ∧ calls = asked ++ last ∧
        ResolvesAll suffix before asked targets ∧ Resolves suffix argument last (.error failure) ∧
        outcome = .error failure := by
  induction arguments generalizing calls outcome with
  | nil =>
    obtain ⟨rfl, rfl⟩ := Exchange.course_ofResult course
    exact .inl ⟨[], rfl, .nil⟩
  | cons argument arguments ih =>
    obtain ⟨head, tail⟩ := List.forall_mem_cons.1 plain
    rw [List.map_cons, List.mapM_cons] at course
    rcases Exchange.course_bind course with
      ⟨failure, first, rfl⟩ | ⟨target, asked, more, first, rest, rfl⟩
    · exact .inr ⟨[], argument, arguments, [], [], calls, failure, rfl, rfl, .nil,
        resolves_of_course head first, rfl⟩
    · have resolves := resolves_of_course head first
      rcases Exchange.course_bind rest with
        ⟨failure, others, rfl⟩ | ⟨targets, before, after, others, last, rfl⟩
      · rcases ih tail others with ⟨targets, wrong, -⟩ | stopped
        · cases wrong
        · obtain ⟨before, other, after, earlier, targets, last, _, split, rfl, resolved, failed,
            same⟩ := stopped
          cases same
          refine .inr ⟨argument :: before, other, after, asked ++ earlier, target :: targets, last,
            failure, ?_, ?_, .cons resolves resolved, failed, rfl⟩
          · rw [split, List.cons_append]
          · rw [List.append_assoc]
      · obtain ⟨rfl, rfl⟩ := Exchange.course_ofResult last
        rcases ih tail others with ⟨found, same, resolved⟩ | stopped
        · cases same
          rw [List.append_nil]
          exact .inl ⟨target :: targets, rfl, .cons resolves resolved⟩
        · obtain ⟨_, _, _, _, _, _, _, _, _, _, _, wrong⟩ := stopped
          cases wrong

end Resolution

section Quiet

variable {α β : Type}

/-- A part of a run that asks nothing of the build system. -/
def Quiet (session : Session α) : Prop :=
  ∀ calls outcome, Exchange.Course session calls outcome → builderCalls calls = []

theorem quiet_ofResult (result : Except Failure α) : Quiet (Exchange.ofResult result) := by
  intro calls outcome course
  obtain ⟨rfl, -⟩ := Exchange.course_ofResult course
  rfl

theorem quiet_put {question : BuildService.Ask} (other : question.isForBuilder = false) :
    Quiet (Exchange.put question) := by
  intro calls outcome course
  obtain ⟨reply, rfl, -⟩ := Exchange.course_put course
  simp [builderCalls, other]

theorem Quiet.bind {session : Session α} {next : α → Session β} (quiet : Quiet session)
    (quietNext : ∀ value, Quiet (next value)) : Quiet (session >>= next) := by
  intro calls outcome course
  rcases Exchange.course_bind course with
    ⟨failure, first, -⟩ | ⟨value, before, after, first, second, rfl⟩
  · exact quiet _ _ first
  · rw [builderCalls_append, quiet _ _ first, quietNext value _ _ second, List.append_nil]

theorem quiet_pure (value : α) : Quiet (pure value : Session α) :=
  quiet_ofResult (.ok value)

theorem quiet_mapM {step : α → Session β} (quiet : ∀ value, Quiet (step value))
    (values : List α) : Quiet (values.mapM step) := by
  induction values with
  | nil => exact quiet_pure []
  | cons value values ih =>
    rw [List.mapM_cons]
    exact (quiet value).bind fun head => ih.bind fun rest => quiet_pure (head :: rest)

theorem quiet_tell (settings : Settings) (notice : Notice) : Quiet (tell settings notice) := by
  unfold tell
  split
  · exact quiet_put rfl
  · exact quiet_pure ()

theorem quiet_loadDescriptor (path : Path) : Quiet (loadDescriptor path) :=
  (quiet_put rfl).bind fun content => quiet_ofResult (Descriptor.ofFile path content)

theorem quiet_loadAll (root : Path) (names : List String) :
    Quiet (Descriptor.loadAll loadDescriptor root names) :=
  (quiet_mapM (fun name => quiet_loadDescriptor (root.join (.ofText name))) _).bind
    fun loaded => quiet_pure (Descriptor.firsts loaded)

theorem ok_of_course_tell {settings : Settings} {notice : Notice} {calls : List Call}
    {outcome : Except Failure Unit}
    (course : Exchange.Course (tell settings notice) calls outcome) :
    outcome = .ok () := by
  unfold tell at course
  split at course
  · obtain ⟨reply, -, same⟩ := Exchange.course_put course
    exact same
  · exact (Exchange.course_ofResult course).2

end Quiet

section Building

variable {settings : Settings} {request : Request} {targets : List String} {calls : List Call}

def announce (settings : Settings) (flags targets : List String) : Session Unit := do
  tell settings (startNotice targets)
  if flags ≠ [] then
    tell settings (flagsNotice flags)

def conclude (settings : Settings) (targets : List String) (log : Bytes) : Session Response := do
  let graph ← graphOfLog settings.outputGroup log
  let files := graph.flatten
  tell settings (filesNotice graph files)
  let descriptors ← Descriptor.loadAll loadDescriptor settings.workspaceRoot files
  let packages := PackageGraph.ofDescriptors descriptors
  let roots := packages.selectRoots targets
  tell settings (packagesNotice packages roots)
  return { roots, packages := packages.sortedPackages }

theorem respond_eq (settings : Settings) (request : Request) (targets : List String) :
    respond settings request targets = (do
      announce settings (settings.buildFlags ++ request.buildFlags) targets
      let log ←
        build settings.outputGroup (settings.buildFlags ++ request.buildFlags) targets
      conclude settings targets log) := by
  unfold respond announce
  rw [LawfulMonad.bind_assoc]
  by_cases given : settings.buildFlags ++ request.buildFlags ≠ []
  · simp only [if_pos given]
    rfl
  · simp only [if_neg given]
    rfl

theorem quiet_conclude (log : Bytes) : Quiet (conclude settings targets log) :=
  (quiet_ofResult _).bind fun _ => (quiet_tell settings _).bind fun _ =>
    (quiet_loadAll settings.workspaceRoot _).bind fun _ => (quiet_tell settings _).bind fun _ =>
      quiet_pure _

theorem quiet_announce (flags : List String) : Quiet (announce settings flags targets) := by
  refine (quiet_tell settings _).bind fun _ => ?_
  split
  · exact quiet_tell settings _
  · exact quiet_pure ()

theorem ok_of_course_announce {flags : List String} {outcome : Except Failure Unit}
    (course : Exchange.Course (announce settings flags targets) calls outcome) :
    outcome = .ok () := by
  rcases Exchange.course_bind course with
    ⟨failure, first, -⟩ | ⟨_, before, after, first, second, rfl⟩
  · cases ok_of_course_tell first
  · split at second
    · exact ok_of_course_tell second
    · exact (Exchange.course_ofResult second).2

/-- There is one build, before which and after which nothing is asked of the build system. -/
theorem exists_reply_of_course_respond {outcome : Except Failure Response}
    (course : Exchange.Course (respond settings request targets) calls outcome) :
    ∃ reply : Except Failure Bytes,
      builderCalls calls = [⟨.build settings.outputGroup
        (settings.buildFlags ++ request.buildFlags) targets, reply⟩] ∧
      ∀ failure, reply = .error failure → outcome = .error failure := by
  rw [respond_eq] at course
  rcases Exchange.course_bind course with
    ⟨failure, first, -⟩ | ⟨_, before, after, first, rest, rfl⟩
  · cases ok_of_course_announce first
  rw [builderCalls_append, quiet_announce _ _ _ first, List.nil_append]
  rcases Exchange.course_bind rest with
    ⟨failure, built, rfl⟩ | ⟨log, building, more, built, last, rfl⟩
  · obtain ⟨reply, none, known, rfl⟩ := Exchange.course_put_bind built
    obtain ⟨rfl, failed⟩ := Exchange.course_ofResult known
    refine ⟨reply, rfl, ?_⟩
    intro other passed
    exact congrArg Except.error (Except.error.inj (failed.trans passed))
  · rw [builderCalls_append, quiet_conclude log _ _ last, List.append_nil]
    obtain ⟨reply, none, known, rfl⟩ := Exchange.course_put_bind built
    obtain ⟨rfl, replied⟩ := Exchange.course_ofResult known
    refine ⟨reply, rfl, ?_⟩
    intro other passed
    cases replied.trans passed

end Building

section Run

variable {settings : Settings} {arguments : List String} {request : Bytes} {calls : List Call}

theorem isPattern_ofText_iff {argument : String} :
    (Identifier.ofText argument).isPattern = true ↔ IsPattern argument := by
  constructor
  · intro found
    cases read : Identifier.ofText argument with
    | pattern expression => exact ⟨expression, Identifier.ofText_eq_pattern_iff.1 read⟩
    | label text => rw [read] at found; cases found
    | file path => rw [read] at found; cases found
  · intro ⟨expression, marked⟩
    rw [Identifier.ofText_eq_pattern_iff.2 marked]
    rfl

theorem exists_first_pattern {found : Identifier}
    (first : (arguments.map Identifier.ofText).find? Identifier.isPattern = some found) :
    ∃ before argument after, arguments = before ++ argument :: after ∧
      found = Identifier.ofText argument ∧ IsPattern argument ∧
      ∀ other ∈ before, ¬IsPattern other := by
  rw [List.find?_map, Option.map_eq_some_iff] at first
  obtain ⟨argument, first, rfl⟩ := first
  obtain ⟨pattern, before, after, split, others⟩ := List.find?_eq_some_iff_append.1 first
  refine ⟨before, argument, after, split, rfl, isPattern_ofText_iff.1 pattern, ?_⟩
  intro other member marked
  simpa [isPattern_ofText_iff.2 marked] using others other member

theorem not_isPattern_of_find? {argument : String}
    (none : (arguments.map Identifier.ofText).find? Identifier.isPattern = none)
    (member : argument ∈ arguments) : ¬IsPattern argument := by
  intro marked
  have unmarked := List.find?_eq_none.1 none _ (List.mem_map_of_mem member)
  exact unmarked (isPattern_ofText_iff.2 marked)

theorem asks_of_course_resolveAll {decoded : Request} {outcome : Except Failure String}
    (some : arguments ≠ []) (decodable : Request.decode request = .ok decoded)
    (course : Exchange.Course (do
      let targets ← resolveAll settings.sourceSuffix (arguments.map Identifier.ofText)
      let response ← respond settings decoded targets
      Exchange.ofResult (response.encode.mapError .reported)) calls outcome) :
    Asks settings arguments request (builderCalls calls) outcome := by
  rw [resolveAll, if_neg (mt List.map_eq_nil_iff.1 some)] at course
  cases found : (arguments.map Identifier.ofText).find? Identifier.isPattern with
  | some identifier =>
    obtain ⟨before, argument, after, split, rfl, pattern, others⟩ := exists_first_pattern found
    rw [found] at course
    rcases Exchange.course_ofResult_bind _ course with ⟨failure, failed, rfl, rfl⟩ | ⟨_, wrong, -⟩
    · cases failed
      rw [Identifier.text_ofText]
      exact .pattern decodable split pattern others
    · cases wrong
  | none =>
    have plain : ∀ argument ∈ arguments, ¬IsPattern argument := by
      intro argument member
      exact not_isPattern_of_find? found member
    rw [found] at course
    rcases Exchange.course_bind course with
      ⟨failure, resolving, rfl⟩ | ⟨targets, asked, rest, resolving, responding, rfl⟩
    · rcases resolvesAll_of_course plain resolving with ⟨_, wrong, -⟩ | stopped
      · cases wrong
      · obtain ⟨before, argument, after, asked, targets, last, _, split, rfl, resolved, failed,
          same⟩ := stopped
        cases same
        rw [builderCalls_append, resolved.builderCalls_eq, failed.builderCalls_eq]
        exact .unresolved decodable plain split resolved failed
    · rcases resolvesAll_of_course plain resolving with ⟨_, same, resolved⟩ | stopped
      · cases same
        rw [builderCalls_append, resolved.builderCalls_eq]
        rcases Exchange.course_bind responding with
          ⟨failure, built, rfl⟩ | ⟨response, building, written, built, writing, rfl⟩
        · obtain ⟨reply, asked, passedOn⟩ := exists_reply_of_course_respond built
          rw [asked]
          refine .built some decodable plain resolved ?_
          intro other failed
          exact congrArg Except.error (Except.error.inj (passedOn other failed))
        · obtain ⟨reply, asked, passedOn⟩ := exists_reply_of_course_respond built
          obtain ⟨rfl, -⟩ := Exchange.course_ofResult writing
          rw [List.append_nil, asked]
          refine .built some decodable plain resolved ?_
          intro other failed
          cases passedOn other failed
      · obtain ⟨_, _, _, _, _, _, _, _, _, _, _, wrong⟩ := stopped
        cases wrong

theorem asks_of_course {outcome : Except Failure String}
    (course : Exchange.Course (respondTo settings arguments request) calls outcome) :
    Asks settings arguments request (builderCalls calls) outcome := by
  by_cases empty : arguments = []
  · rw [respondTo, Identifier.ofArguments, if_pos empty] at course
    obtain ⟨rfl, rfl⟩ := Exchange.course_ofResult course
    exact .noArguments empty
  · rw [respondTo, Identifier.ofArguments, if_neg empty] at course
    rcases Exchange.course_ofResult_bind (Request.decode request) course with
      ⟨failure, undecodable, rfl, rfl⟩ | ⟨decoded, decodable, rest⟩
    · exact .badRequest empty undecodable
    · exact asks_of_course_resolveAll empty decodable rest

end Run

end Session

end GoMetadata
