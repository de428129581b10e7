import GoMetadata.Error

/-!
Dialogues: computations that put questions to their surroundings. A dialogue says what is asked and
how it goes on after every possible reply, so a statement about all replies is a statement about one
value. Surroundings are a state and a rule that answers each question and moves the state on.
Exchanges are dialogues that may fail; after a failure nothing more is asked.
-/

namespace GoMetadata

inductive Dialogue (Ask : Type) (Reply : Ask → Type) (α : Type) where
  | done (result : α)
  | ask (question : Ask) (next : Reply question → Dialogue Ask Reply α)

namespace Dialogue

variable {Ask : Type} {Reply : Ask → Type} {α β : Type}

def bind (dialogue : Dialogue Ask Reply α) (next : α → Dialogue Ask Reply β) :
    Dialogue Ask Reply β :=
  match dialogue with
  | done result => next result
  | ask question more => ask question fun reply => (more reply).bind next

instance : Monad (Dialogue Ask Reply) where
  pure := done
  bind := bind

def put (question : Ask) : Dialogue Ask Reply (Reply question) :=
  ask question done

def holdIn {m : Type → Type} [Monad m] (answer : (question : Ask) → m (Reply question)) :
    Dialogue Ask Reply α → m α
  | done result => pure result
  | ask question next => do holdIn answer (next (← answer question))

def hold {σ : Type} (answer : σ → (question : Ask) → Reply question × σ) (state : σ) :
    Dialogue Ask Reply α → α × σ
  | done result => (result, state)
  | ask question next =>
    let (reply, state) := answer state question
    hold answer state (next reply)

def through {Ask' : Type} {Reply' : Ask' → Type}
    (answer : (question : Ask) → Dialogue Ask' Reply' (Reply question)) :
    Dialogue Ask Reply α → Dialogue Ask' Reply' α
  | done result => done result
  | ask question next => (answer question).bind fun reply => through answer (next reply)

theorem bind_done (dialogue : Dialogue Ask Reply α) : dialogue.bind done = dialogue := by
  induction dialogue with
  | done result => rfl
  | ask question next ih => simp only [bind, ih]

theorem bind_assoc {γ : Type} (dialogue : Dialogue Ask Reply α)
    (f : α → Dialogue Ask Reply β) (g : β → Dialogue Ask Reply γ) :
    (dialogue.bind f).bind g = dialogue.bind fun result => (f result).bind g := by
  induction dialogue with
  | done result => rfl
  | ask question next ih => simp only [bind, ih]

instance : LawfulMonad (Dialogue Ask Reply) :=
  LawfulMonad.mk' _ bind_done (fun _ _ => rfl) bind_assoc

end Dialogue

abbrev Exchange (Ask : Type) (Reply : Ask → Type) :=
  ExceptT Failure (Dialogue Ask Reply)

namespace Exchange

variable {Ask : Type} {Reply : Ask → Type} {α : Type}

def put (question : Ask) : Exchange Ask Reply (Reply question) :=
  ExceptT.lift (Dialogue.put question)

def ofResult (result : Except Failure α) : Exchange Ask Reply α :=
  ExceptT.mk (.done result)

def fail (failure : Failure) : Exchange Ask Reply α :=
  ofResult (.error failure)

/-- Goes on with what became of an exchange, be it a failure. -/
def outcome (exchange : Exchange Ask Reply α) : Exchange Ask Reply (Except Failure α) :=
  ExceptT.lift exchange.run

end Exchange

end GoMetadata
