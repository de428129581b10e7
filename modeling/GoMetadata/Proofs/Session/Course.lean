import GoMetadata.Dialogue
import Mathlib.Data.List.Forall2

/-!
The courses that a dialogue can take: what is asked, what is replied, and what comes of it. Every
reply is possible in some course, so what holds of all courses holds in all surroundings, also where
these change with every question.
-/

namespace GoMetadata

namespace Dialogue

variable {Ask : Type} {Reply : Ask → Type} {α β σ : Type}

def transcript (answer : σ → (question : Ask) → Reply question × σ) (state : σ) :
    Dialogue Ask Reply α → List (Sigma Reply)
  | done _ => []
  | ask question next =>
    let (reply, state) := answer state question
    ⟨question, reply⟩ :: transcript answer state (next reply)

/-- A course of a dialogue: the questions with the replies to them, and the result. -/
inductive Course : Dialogue Ask Reply α → List (Sigma Reply) → α → Prop where
  | done (result : α) : Course (done result) [] result
  | ask {question : Ask} {next : Reply question → Dialogue Ask Reply α} {reply : Reply question}
      {calls : List (Sigma Reply)} {result : α} (rest : Course (next reply) calls result) :
      Course (ask question next) (⟨question, reply⟩ :: calls) result

variable (answer : σ → (question : Ask) → Reply question × σ)

theorem course_hold (state : σ) (dialogue : Dialogue Ask Reply α) :
    dialogue.Course (dialogue.transcript answer state) (dialogue.hold answer state).1 := by
  induction dialogue generalizing state with
  | done result => exact .done result
  | ask question next ih => exact .ask (ih _ _)

theorem hold_bind (state : σ) (dialogue : Dialogue Ask Reply α)
    (next : α → Dialogue Ask Reply β) :
    (dialogue.bind next).hold answer state =
      (next (dialogue.hold answer state).1).hold answer (dialogue.hold answer state).2 := by
  induction dialogue generalizing state with
  | done result => rfl
  | ask question more ih => exact ih _ _

variable {answer}

theorem exists_of_course_bind {dialogue : Dialogue Ask Reply α}
    {next : α → Dialogue Ask Reply β} {calls : List (Sigma Reply)} {result : β}
    (course : (dialogue.bind next).Course calls result) :
    ∃ before value after, dialogue.Course before value ∧ (next value).Course after result ∧
      calls = before ++ after := by
  induction dialogue generalizing calls with
  | done value => exact ⟨[], value, calls, .done value, course, rfl⟩
  | ask question more ih =>
    cases course with
    | @ask _ _ reply rest _ courseRest =>
      obtain ⟨before, value, after, first, second, rfl⟩ := ih reply courseRest
      exact ⟨⟨question, reply⟩ :: before, value, after, .ask first, second, rfl⟩

theorem course_put {question : Ask} {reply : Reply question} {calls : List (Sigma Reply)}
    (course : (put question).Course calls reply) : calls = [⟨question, reply⟩] := by
  cases course with
  | ask rest =>
    cases rest
    rfl

theorem Course.append {dialogue : Dialogue Ask Reply α} {next : α → Dialogue Ask Reply β}
    {before after : List (Sigma Reply)} {value : α} {result : β}
    (first : dialogue.Course before value) (second : (next value).Course after result) :
    (dialogue.bind next).Course (before ++ after) result := by
  induction first with
  | done value => exact second
  | ask rest ih => exact .ask (ih second)

section Invariants

variable {state : σ} {dialogue : Dialogue Ask Reply α} {P : σ → Prop}

theorem hold_keeps (kept : ∀ state question, P state → P (answer state question).2)
    (holds : P state) : P (dialogue.hold answer state).2 := by
  induction dialogue generalizing state with
  | done result => exact holds
  | ask question next ih => exact ih _ (kept state question holds)

/-- What every answer keeps holds wherever a question was answered. -/
theorem exists_of_mem_transcript (kept : ∀ state question, P state → P (answer state question).2)
    (holds : P state) {question : Ask} {reply : Reply question}
    (member : ⟨question, reply⟩ ∈ dialogue.transcript answer state) :
    ∃ state, P state ∧ (answer state question).1 = reply := by
  induction dialogue generalizing state with
  | done result => cases member
  | ask other next ih =>
    rcases List.mem_cons.1 member with same | later
    · cases same
      exact ⟨state, holds, rfl⟩
    · exact ih _ (kept state other holds) later

end Invariants

section Through

variable {Ask' : Type} {Reply' : Ask' → Type}

/-- Questions that are answered by dialogues with other surroundings, each by a course of its
own. -/
inductive Through (answer : (question : Ask) → Dialogue Ask' Reply' (Reply question)) :
    List (Sigma Reply) → List (Sigma Reply') → Prop where
  | nil : Through answer [] []
  | cons {question : Ask} {reply : Reply question} {calls : List (Sigma Reply)}
      {part rest : List (Sigma Reply')} (answered : (answer question).Course part reply)
      (more : Through answer calls rest) :
      Through answer (⟨question, reply⟩ :: calls) (part ++ rest)

variable {answer : (question : Ask) → Dialogue Ask' Reply' (Reply question)}

theorem exists_of_course_through {dialogue : Dialogue Ask Reply α} {inner : List (Sigma Reply')}
    {result : α} (course : (dialogue.through answer).Course inner result) :
    ∃ calls, dialogue.Course calls result ∧ Through answer calls inner := by
  induction dialogue generalizing inner with
  | done value =>
    cases course
    exact ⟨[], .done _, .nil⟩
  | ask question next ih =>
    obtain ⟨part, reply, rest, answered, more, rfl⟩ := exists_of_course_bind course
    obtain ⟨calls, course, through⟩ := ih reply more
    exact ⟨⟨question, reply⟩ :: calls, .ask course, .cons answered through⟩

variable {calls : List (Sigma Reply)} {inner : List (Sigma Reply')}

theorem Through.exists_part (through : Through answer calls inner) {question : Ask}
    {reply : Reply question} (member : ⟨question, reply⟩ ∈ calls) :
    ∃ part, (answer question).Course part reply ∧ part ⊆ inner := by
  induction through with
  | nil => cases member
  | @cons _ _ calls part rest answered more ih =>
    rcases List.mem_cons.1 member with same | later
    · cases same
      exact ⟨part, answered, List.subset_append_left part rest⟩
    · obtain ⟨other, answered, inside⟩ := ih later
      exact ⟨other, answered, List.Subset.trans inside (List.subset_append_right part rest)⟩

theorem Through.exists_call (through : Through answer calls inner) {call : Sigma Reply'}
    (member : call ∈ inner) :
    ∃ question reply part, ⟨question, reply⟩ ∈ calls ∧ (answer question).Course part reply ∧
      call ∈ part := by
  induction through with
  | nil => cases member
  | @cons question reply calls part rest answered more ih =>
    rcases List.mem_append.1 member with here | later
    · exact ⟨question, reply, part, List.mem_cons_self, answered, here⟩
    · obtain ⟨question, reply, part, found, answered, inside⟩ := ih later
      exact ⟨question, reply, part, List.mem_cons_of_mem _ found, answered, inside⟩

end Through

end Dialogue

namespace Exchange

variable {Ask : Type} {Reply : Ask → Type} {α β : Type}

def Course (exchange : Exchange Ask Reply α) (calls : List (Sigma Reply))
    (outcome : Except Failure α) : Prop :=
  exchange.run.Course calls outcome

variable {calls : List (Sigma Reply)} {outcome : Except Failure α}

theorem course_ofResult {result : Except Failure α}
    (course : (ofResult result : Exchange Ask Reply α).Course calls outcome) :
    calls = [] ∧ outcome = result := by
  cases course
  exact ⟨rfl, rfl⟩

theorem course_put {question : Ask} {outcome : Except Failure (Reply question)}
    (course : Course (put question) calls outcome) :
    ∃ reply, calls = [⟨question, reply⟩] ∧ outcome = .ok reply := by
  cases course with
  | @ask _ _ reply rest _ courseRest =>
    cases courseRest
    exact ⟨reply, rfl, rfl⟩

theorem course_bind {exchange : Exchange Ask Reply α} {next : α → Exchange Ask Reply β}
    {outcome : Except Failure β} (course : Course (exchange >>= next) calls outcome) :
    (∃ failure, Course exchange calls (.error failure) ∧ outcome = .error failure) ∨
      ∃ value before after, Course exchange before (.ok value) ∧
        Course (next value) after outcome ∧ calls = before ++ after := by
  obtain ⟨before, value, after, first, second, rfl⟩ := Dialogue.exists_of_course_bind course
  cases value with
  | error failure =>
    cases second
    rw [List.append_nil]
    exact .inl ⟨failure, first, rfl⟩
  | ok value => exact .inr ⟨value, before, after, first, second, rfl⟩

theorem course_put_bind {question : Ask} {next : Reply question → Exchange Ask Reply β}
    {outcome : Except Failure β} (course : Course (put question >>= next) calls outcome) :
    ∃ reply after, Course (next reply) after outcome ∧ calls = ⟨question, reply⟩ :: after := by
  rcases course_bind course with ⟨failure, asked, -⟩ | ⟨value, before, after, asked, rest, rfl⟩
  · obtain ⟨reply, -, wrong⟩ := course_put asked
    cases wrong
  · obtain ⟨reply, rfl, same⟩ := course_put asked
    cases same
    exact ⟨value, after, rest, rfl⟩

theorem course_outcome_bind {exchange : Exchange Ask Reply α}
    {next : Except Failure α → Exchange Ask Reply β} {outcome : Except Failure β}
    (course : Course (exchange.outcome >>= next) calls outcome) :
    ∃ result before after, Course exchange before result ∧ Course (next result) after outcome ∧
      calls = before ++ after := by
  obtain ⟨all, value, after, lifted, second, rfl⟩ := Dialogue.exists_of_course_bind course
  obtain ⟨before, result, last, first, known, rfl⟩ := Dialogue.exists_of_course_bind lifted
  cases known
  rw [List.append_nil]
  exact ⟨result, before, after, first, second, rfl⟩

theorem course_ofResult_bind (result : Except Failure α) {next : α → Exchange Ask Reply β}
    {outcome : Except Failure β} (course : Course (ofResult result >>= next) calls outcome) :
    (∃ failure, result = .error failure ∧ calls = [] ∧ outcome = .error failure) ∨
      ∃ value, result = .ok value ∧ Course (next value) calls outcome := by
  cases result with
  | error failure =>
    obtain ⟨rfl, rfl⟩ := course_ofResult course
    exact .inl ⟨failure, rfl, rfl, rfl⟩
  | ok value => exact .inr ⟨value, rfl, course⟩

section Possible

variable {exchange : Exchange Ask Reply α} {next : α → Exchange Ask Reply β}
variable {before after : List (Sigma Reply)}

theorem course_ofResult_self (result : Except Failure α) :
    (ofResult result : Exchange Ask Reply α).Course [] result :=
  .done result

theorem course_put_reply (question : Ask) (reply : Reply question) :
    Course (put question) [⟨question, reply⟩] (.ok reply) :=
  .ask (.done _)

theorem Course.bind {value : α} {outcome : Except Failure β}
    (first : exchange.Course before (.ok value)) (second : (next value).Course after outcome) :
    Course (exchange >>= next) (before ++ after) outcome :=
  first.append second

theorem Course.bind_error {failure : Failure} (first : exchange.Course before (.error failure)) :
    Course (exchange >>= next) before (.error failure) := by
  have passedOn : (ExceptT.bindCont next (.error failure)).Course [] (.error failure) :=
    Dialogue.Course.done (.error failure : Except Failure β)
  have course := Dialogue.Course.append first passedOn
  rwa [List.append_nil] at course

end Possible

section InTurn

/-- What is done one after the other, and succeeds each time. -/
inductive InTurn (single : α → List (Sigma Reply) → Except Failure β → Prop) :
    List α → List (Sigma Reply) → List β → Prop where
  | nil : InTurn single [] [] []
  | cons {value : α} {result : β} {values : List α} {results : List β}
      {asked more : List (Sigma Reply)} (first : single value asked (.ok result))
      (rest : InTurn single values more results) :
      InTurn single (value :: values) (asked ++ more) (result :: results)

variable {single other : α → List (Sigma Reply) → Except Failure β → Prop}
variable {values : List α} {results : List β} {calls : List (Sigma Reply)}

theorem InTurn.imp (same : ∀ value ∈ values, ∀ asked outcome,
      single value asked outcome → other value asked outcome)
    (turns : InTurn single values calls results) : InTurn other values calls results := by
  induction turns with
  | nil => exact .nil
  | cons first rest ih =>
    obtain ⟨head, tail⟩ := List.forall_mem_cons.1 same
    exact .cons (head _ _ first) (ih tail)

theorem InTurn.forall₂ (turns : InTurn single values calls results) :
    List.Forall₂ (fun value result => ∃ asked, single value asked (.ok result)) values results := by
  induction turns with
  | nil => exact .nil
  | cons first rest ih => exact .cons ⟨_, first⟩ ih

variable {step : α → Exchange Ask Reply β}

/-- Steps in turn succeed all, or up to the first that fails, after which nothing more is done. -/
theorem course_mapM_iff {outcome : Except Failure (List β)} :
    Course (values.mapM step) calls outcome ↔
      (∃ results, outcome = .ok results ∧
        InTurn (fun value => (step value).Course) values calls results) ∨
      ∃ before value after asked results last failure,
        values = before ++ value :: after ∧ calls = asked ++ last ∧
        InTurn (fun value => (step value).Course) before asked results ∧
        (step value).Course last (.error failure) ∧ outcome = .error failure := by
  constructor
  · intro course
    induction values generalizing calls outcome with
    | nil =>
      obtain ⟨rfl, rfl⟩ := course_ofResult course
      exact .inl ⟨[], rfl, .nil⟩
    | cons value values ih =>
      rw [List.mapM_cons] at course
      rcases course_bind course with ⟨failure, first, rfl⟩ | ⟨result, asked, more, first, rest, rfl⟩
      · exact .inr ⟨[], value, values, [], [], calls, failure, rfl, rfl, .nil, first, rfl⟩
      rcases course_bind rest with
        ⟨failure, others, rfl⟩ | ⟨results, before, after, others, last, rfl⟩
      · rcases ih others with ⟨_, wrong, -⟩ | stopped
        · cases wrong
        obtain ⟨before, other, after, earlier, results, last, _, rfl, rfl, turns, failed, same⟩ :=
          stopped
        cases same
        refine .inr ⟨value :: before, other, after, asked ++ earlier, result :: results, last,
          failure, rfl, ?_, .cons first turns, failed, rfl⟩
        rw [List.append_assoc]
      · obtain ⟨rfl, rfl⟩ := course_ofResult last
        rcases ih others with ⟨found, same, turns⟩ | ⟨_, _, _, _, _, _, _, _, _, _, _, wrong⟩
        · cases same
          rw [List.append_nil]
          exact .inl ⟨result :: results, rfl, .cons first turns⟩
        · cases wrong
  · rintro (⟨results, rfl, turns⟩ |
      ⟨before, value, after, asked, results, last, failure, rfl, rfl, turns, failed, rfl⟩)
    · induction turns with
      | nil => exact course_ofResult_self (.ok [])
      | @cons value result values results asked more first rest ih =>
        rw [List.mapM_cons, ← List.append_nil more]
        exact first.bind (ih.bind (course_ofResult_self (.ok (result :: results))))
    · induction turns with
      | nil =>
        rw [List.nil_append, List.nil_append, List.mapM_cons]
        exact failed.bind_error
      | cons first rest ih =>
        rw [List.cons_append, List.append_assoc, List.mapM_cons]
        exact first.bind ih.bind_error

end InTurn

end Exchange

end GoMetadata
