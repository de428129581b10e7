import GoMetadata.Proofs.Session.Calls

/-!
What identifiers come to, whatever the replies to queries. Each is resolved to a set of one target,
or the first of them that cannot be resolved says why; a pattern says so before any of the others.
-/

namespace GoMetadata

theorem Identifier.ofText_eq_label {text : String} (noFile : ∀ path, text ≠ fileMark ++ path)
    (noPattern : ∀ expression, text ≠ patternMark ++ expression) : ofText text = .label text := by
  cases read : ofText text with
  | label label => rw [(of_ofText_eq_label read).1]
  | file path => exact absurd (ofText_eq_file_iff.1 read) (noFile path)
  | pattern expression => exact absurd (ofText_eq_pattern_iff.1 read) (noPattern expression)

theorem Identifier.targetOfAnswer_of_several {path output : String}
    (several : (Text.contentLines output).length ≠ 1) :
    targetOfAnswer path output = .error (.ambiguousSource path (Text.contentLines output) "") := by
  unfold targetOfAnswer
  split
  next only =>
    rw [only] at several
    exact absurd rfl several
  next => rfl

theorem flatten_mapM_singleton {α β : Type} {m : Type → Type} [Monad m] [LawfulMonad m]
    (f : α → m β) (values : List α) :
    List.flatten <$> values.mapM (fun value => do return [← f value]) = values.mapM f := by
  induction values with
  | nil => simp only [List.mapM_nil, map_pure, List.flatten_nil]
  | cons value values ih =>
    rw [List.mapM_cons, List.mapM_cons, ← ih]
    simp only [map_bind, bind_assoc, pure_bind, map_pure, bind_map_left, List.flatten_cons,
      List.singleton_append]

namespace Session

open Exchange (InTurn)

/-- What one argument comes to: what is asked for it, and its targets or the failure. -/
inductive Comes (suffix : String) : String → List Call → Except Failure (List String) → Prop where
  | itself {text : String} (noFile : ∀ path, text ≠ Identifier.fileMark ++ path)
      (noPattern : ¬IsPattern text) : Comes suffix text [] (.ok [text])
  | package {path output label : String} (source : hasEnding suffix path = true)
      (only : Text.contentLines output = [label]) :
      Comes suffix (Identifier.fileMark ++ path) [⟨.query path, .ok output⟩]
        (.ok [Label.package label path ++ ":all"])
  | otherKind {path : String} (other : hasEnding suffix path = false) :
      Comes suffix (Identifier.fileMark ++ path) []
        (.error (.reported (.unsupportedFileKind path suffix)))
  | ambiguous {path output : String} (source : hasEnding suffix path = true)
      (several : (Text.contentLines output).length ≠ 1) :
      Comes suffix (Identifier.fileMark ++ path) [⟨.query path, .ok output⟩]
        (.error (.reported (.ambiguousSource path (Text.contentLines output) "")))
  | refused {path : String} {error : DriverError} (source : hasEnding suffix path = true) :
      Comes suffix (Identifier.fileMark ++ path) [⟨.query path, .error (.reported error)⟩]
        (.error (.reported (.ambiguousSource path [] error.message)))
  | escaped {path : String} {defect : Defect} (source : hasEnding suffix path = true) :
      Comes suffix (Identifier.fileMark ++ path) [⟨.query path, .error (.unreported defect)⟩]
        (.error (.unreported defect))

inductive ComeTo (suffix : String) (arguments : List String) :
    List Call → Except Failure (List (List String)) → Prop where
  | pattern {before after : List String} {argument : String}
      (split : arguments = before ++ argument :: after) (pattern : IsPattern argument)
      (first : ∀ other ∈ before, ¬IsPattern other) :
      ComeTo suffix arguments [] (.error (.reported (.unsupportedQuery argument)))
  | failed {before after : List String} {argument : String} {asked last : List Call}
      {sets : List (List String)} {failure : Failure}
      (noPattern : ∀ argument ∈ arguments, ¬IsPattern argument)
      (split : arguments = before ++ argument :: after)
      (resolved : InTurn (Comes suffix) before asked sets)
      (failed : Comes suffix argument last (.error failure)) :
      ComeTo suffix arguments (asked ++ last) (.error failure)
  | resolved {calls : List Call} {sets : List (List String)}
      (noPattern : ∀ argument ∈ arguments, ¬IsPattern argument)
      (resolved : InTurn (Comes suffix) arguments calls sets) :
      ComeTo suffix arguments calls (.ok sets)

section Single

variable {suffix argument : String} {calls : List Call}

theorem comes_of_resolves {outcome : Except Failure String} (plain : ¬IsPattern argument)
    (resolves : Resolves suffix argument calls outcome) :
    Comes suffix argument calls (outcome.map fun target => [target]) := by
  cases resolves with
  | label bare => exact .itself bare plain
  | otherKind other => exact .otherKind other
  | @lookedUp path source reply =>
    match reply with
    | .error (.reported error) => exact .refused source
    | .error (.unreported defect) => exact .escaped source
    | .ok output =>
      by_cases single : (Text.contentLines output).length = 1
      · obtain ⟨label, only⟩ := List.length_eq_one_iff.1 single
        rw [targetOfReply, Identifier.targetOfAnswer, only]
        exact .package source only
      · rw [targetOfReply, Identifier.targetOfAnswer_of_several single]
        exact .ambiguous source single

theorem comes_of_course {outcome : Except Failure (List String)} (plain : ¬IsPattern argument)
    (course : Exchange.Course (targetSet suffix (Identifier.ofText argument)) calls outcome) :
    Comes suffix argument calls outcome := by
  rcases Exchange.course_bind course with
    ⟨failure, failed, rfl⟩ | ⟨target, asked, more, found, rest, rfl⟩
  · exact comes_of_resolves plain (resolves_of_course plain failed)
  · obtain ⟨rfl, rfl⟩ := Exchange.course_ofResult rest
    rw [List.append_nil]
    exact comes_of_resolves plain (resolves_of_course plain found)

/-- Any reply to the query for a source file is possible, and decides what comes of it. -/
theorem course_targetSet_file {path : String} (source : hasEnding suffix path = true)
    (reply : Except Failure String) :
    Exchange.Course (targetSet suffix (.file path)) [⟨.query path, reply⟩]
      ((targetOfReply path reply).map fun target => [target]) := by
  have asked : Exchange.Course (tryQuery path) [⟨.query path, reply⟩] (.ok reply) :=
    @Exchange.course_put_reply _ BuildService.Reply (.query path) reply
  have found : Exchange.Course
      (tryQuery path >>= fun reply => Exchange.ofResult (targetOfReply path reply))
      [⟨.query path, reply⟩] (targetOfReply path reply) :=
    Exchange.Course.bind asked (Exchange.course_ofResult_self (targetOfReply path reply))
  rw [targetSet, resolve_file path source]
  cases outcome : targetOfReply path reply with
  | error failure =>
    rw [outcome] at found
    exact Exchange.Course.bind_error found
  | ok target =>
    rw [outcome] at found
    exact Exchange.Course.bind found (Exchange.course_ofResult_self (.ok [target]))

theorem course_of_comes {outcome : Except Failure (List String)}
    (comes : Comes suffix argument calls outcome) :
    Exchange.Course (targetSet suffix (Identifier.ofText argument)) calls outcome := by
  have file (path : String) :
      Identifier.ofText (Identifier.fileMark ++ path) = .file path :=
    Identifier.ofText_eq_file_iff.2 rfl
  cases comes with
  | itself noFile noPattern =>
    rw [Identifier.ofText_eq_label noFile fun expression marked => noPattern ⟨expression, marked⟩]
    exact Exchange.course_ofResult_self (.ok [argument])
  | @package path output label source only =>
    have course := course_targetSet_file source (.ok output)
    rw [targetOfReply, Identifier.targetOfAnswer, only] at course
    rw [file]
    exact course
  | @otherKind path other =>
    rw [file, targetSet, resolve, if_neg (ne_true_of_eq_false other)]
    exact Exchange.Course.bind_error (Exchange.course_ofResult_self _)
  | @ambiguous path output source several =>
    have course := course_targetSet_file source (.ok output)
    rw [targetOfReply, Identifier.targetOfAnswer_of_several several] at course
    rw [file]
    exact course
  | @refused path error source =>
    rw [file]
    exact course_targetSet_file source (.error (.reported error))
  | @escaped path defect source =>
    rw [file]
    exact course_targetSet_file source (.error (.unreported defect))

theorem exists_target_of_comes {set : List String} (comes : Comes suffix argument calls (.ok set)) :
    ∃ target, set = [target] := by
  cases comes with
  | itself => exact ⟨_, rfl⟩
  | package => exact ⟨_, rfl⟩

end Single

section All

variable {suffix : String} {arguments : List String} {calls : List Call}

theorem find?_isPattern_eq_some {before after : List String} {argument : String}
    (pattern : IsPattern argument) (first : ∀ other ∈ before, ¬IsPattern other) :
    ((before ++ argument :: after).map Identifier.ofText).find? Identifier.isPattern =
      some (Identifier.ofText argument) := by
  have skipped : (before.map Identifier.ofText).find? Identifier.isPattern = none := by
    rw [List.find?_map, Option.map_eq_none_iff, List.find?_eq_none]
    intro other member marked
    exact first other member (isPattern_ofText_iff.1 marked)
  rw [List.map_append, List.find?_append, skipped, Option.none_or, List.map_cons,
    List.find?_cons_of_pos (isPattern_ofText_iff.2 pattern)]

theorem find?_isPattern_eq_none (noPattern : ∀ argument ∈ arguments, ¬IsPattern argument) :
    (arguments.map Identifier.ofText).find? Identifier.isPattern = none := by
  rw [List.find?_map, Option.map_eq_none_iff, List.find?_eq_none]
  intro argument member marked
  exact noPattern argument member (isPattern_ofText_iff.1 marked)

theorem targetSets_eq_mapM (given : arguments ≠ [])
    (noPattern : ∀ argument ∈ arguments, ¬IsPattern argument) :
    targetSets suffix (arguments.map Identifier.ofText) =
      arguments.mapM fun argument => targetSet suffix (Identifier.ofText argument) := by
  rw [targetSets, if_neg (mt List.map_eq_nil_iff.1 given), find?_isPattern_eq_none noPattern]
  exact List.mapM_map

theorem comeTo_of_course {outcome : Except Failure (List (List String))} (given : arguments ≠ [])
    (course : Exchange.Course (targetSets suffix (arguments.map Identifier.ofText)) calls outcome) :
    ComeTo suffix arguments calls outcome := by
  cases found : (arguments.map Identifier.ofText).find? Identifier.isPattern with
  | some identifier =>
    obtain ⟨before, argument, after, split, rfl, pattern, first⟩ := exists_first_pattern found
    rw [targetSets, if_neg (mt List.map_eq_nil_iff.1 given), found] at course
    obtain ⟨rfl, rfl⟩ := Exchange.course_ofResult course
    rw [Identifier.text_ofText]
    exact .pattern split pattern first
  | none =>
    have noPattern : ∀ argument ∈ arguments, ¬IsPattern argument :=
      fun _ member => not_isPattern_of_find? found member
    rw [targetSets_eq_mapM given noPattern, Exchange.course_mapM_iff] at course
    rcases course with ⟨sets, rfl, turns⟩ |
      ⟨before, argument, after, asked, sets, last, failure, split, rfl, turns, failed, rfl⟩
    · refine .resolved noPattern (turns.imp fun argument member _ _ => ?_)
      exact comes_of_course (noPattern argument member)
    · have plain : ∀ other ∈ before ++ argument :: after, ¬IsPattern other := split ▸ noPattern
      refine .failed noPattern split (turns.imp fun other member _ _ => ?_) ?_
      · exact comes_of_course (plain other (List.mem_append_left _ member))
      · exact comes_of_course (plain argument List.mem_append_cons_self) failed

theorem course_of_comeTo {outcome : Except Failure (List (List String))} (given : arguments ≠ [])
    (comeTo : ComeTo suffix arguments calls outcome) :
    Exchange.Course (targetSets suffix (arguments.map Identifier.ofText)) calls outcome := by
  cases comeTo with
  | @pattern before after argument split pattern first =>
    rw [targetSets, if_neg (mt List.map_eq_nil_iff.1 given), split,
      find?_isPattern_eq_some pattern first]
    simp only [Identifier.text_ofText]
    exact Exchange.course_ofResult_self _
  | failed noPattern split resolved failed =>
    rw [targetSets_eq_mapM given noPattern, Exchange.course_mapM_iff]
    exact .inr ⟨_, _, _, _, _, _, _, split, rfl, resolved.imp fun _ _ _ _ => course_of_comes,
      course_of_comes failed, rfl⟩
  | resolved noPattern resolved =>
    rw [targetSets_eq_mapM given noPattern, Exchange.course_mapM_iff]
    exact .inl ⟨_, rfl, resolved.imp fun _ _ _ _ => course_of_comes⟩

theorem resolveAll_eq (identifiers : List Identifier) :
    resolveAll suffix identifiers = List.flatten <$> targetSets suffix identifiers := by
  unfold resolveAll targetSets
  split
  next => rfl
  next =>
    split
    next => rfl
    next => exact (flatten_mapM_singleton (resolve suffix) identifiers).symm

theorem flatten_of_forall₂ {single : String → String → Prop} {sets : List (List String)}
    (turns : List.Forall₂ (fun argument set => ∃ target, set = [target] ∧ single argument target)
      arguments sets) :
    sets = sets.flatten.map (fun target => [target]) ∧
      List.Forall₂ single arguments sets.flatten := by
  induction turns with
  | nil => exact ⟨rfl, .nil⟩
  | cons first rest ih =>
    obtain ⟨target, rfl, together⟩ := first
    obtain ⟨sets, targets⟩ := ih
    refine ⟨?_, .cons together targets⟩
    rw [List.flatten_cons, List.singleton_append, List.map_cons, ← sets]

end All

/-- Whatever a query service replies, and however it changes between queries, arguments come to what
they say: to sets of one target each, in their order, or to the failure of the first pattern or,
without one, of the first argument that fails. Nothing else is possible and everything of it is. Put
together the sets are one target for each argument. -/
theorem comeTo_targetSets (suffix : String) (arguments : List String) (given : arguments ≠ []) :
    (∀ {σ : Type}
      (service : σ → (question : BuildService.Ask) → BuildService.Reply question × σ) (state : σ),
      ComeTo suffix arguments
        ((targetSets suffix (arguments.map .ofText)).run.transcript service state)
        ((targetSets suffix (arguments.map .ofText)).run.hold service state).1) ∧
    (∀ calls outcome, Exchange.Course (targetSets suffix (arguments.map .ofText)) calls outcome ↔
      ComeTo suffix arguments calls outcome) ∧
    (∀ calls resolved, ComeTo suffix arguments calls (.ok resolved) →
      resolved = resolved.flatten.map (fun target => [target]) ∧
      List.Forall₂ (fun argument target => ∃ asked, Comes suffix argument asked (.ok [target]))
        arguments resolved.flatten) ∧
    resolveAll suffix (arguments.map .ofText) =
      List.flatten <$> targetSets suffix (arguments.map .ofText) := by
  refine ⟨fun service state => ?_, fun calls outcome => ?_, fun calls resolved comeTo => ?_,
    resolveAll_eq _⟩
  · exact comeTo_of_course given (Dialogue.course_hold service state _)
  · exact ⟨comeTo_of_course given, course_of_comeTo given⟩
  · cases comeTo with
    | resolved noPattern turns =>
      apply flatten_of_forall₂
      refine turns.forall₂.imp fun argument set ⟨asked, comes⟩ => ?_
      obtain ⟨target, rfl⟩ := exists_target_of_comes comes
      exact ⟨target, rfl, asked, comes⟩

def foundOnce : Bool → (question : BuildService.Ask) → BuildService.Reply question × Bool
  | false, .query _ => (.ok "\n //x:c.go \n", true)
  | true, .query _ => (.error (.reported (.other "busy")), true)
  | asked, .build _ _ _ => (.ok [], asked)
  | asked, .read _ => (.ok [], asked)
  | asked, .print _ => ((), asked)

/-- The same file is found and then refused; that it is of no other kind is seen before each query,
and the argument behind the failure is not looked at. -/
theorem comeTo_targetSets_found_once :
    ["//a:b", "file=x/c.go", "file=x/c.go", "file=c.txt"] ≠ [] ∧
    ComeTo ".go" ["//a:b", "file=x/c.go", "file=x/c.go", "file=c.txt"]
      [⟨.query "x/c.go", .ok "\n //x:c.go \n"⟩,
        ⟨.query "x/c.go", .error (.reported (.other "busy"))⟩]
      (.error (.reported (.ambiguousSource "x/c.go" [] "busy"))) := by
  have given := List.cons_ne_nil "//a:b" ["file=x/c.go", "file=x/c.go", "file=c.txt"]
  exact ⟨given, (comeTo_targetSets ".go" _ given).1 foundOnce false⟩

end Session

end GoMetadata
