import GoMetadata.Proofs.BuildEvent.Frames
import GoMetadata.Proofs.BuildEvent.Reading
import GoMetadata.Proofs.Wire.Index

/-!
Reading comes to an end. Messages and logs can be read by a loop that holds an index into the bytes;
since each reader moves on where it succeeds, and never beyond the end, every loop ends on any bytes
after as many turns as there are bytes at most, and one more. It comes to what reading from the front
gives, and a message that is read has been read to its end.
-/

namespace GoMetadata

open Wire Varint

section Loops

variable {ε σ : Type}

/-- A loop over a state and an index. Where it has not ended within the turns it has no outcome. -/
def loopWithin (goesOn : σ → Nat → Bool) (turn : σ → Nat → Except ε (σ × Nat)) (turns : Nat)
    (state : σ) (index : Nat) : Option (Except ε (σ × Nat)) :=
  if goesOn state index then
    match turns with
    | 0 => none
    | turns + 1 =>
      match turn state index with
      | .error fault => some (.error fault)
      | .ok (after, next) => loopWithin goesOn turn turns after next
  else some (.ok (state, index))

variable {goesOn : σ → Nat → Bool} {turn : σ → Nat → Except ε (σ × Nat)} {size : Nat}
  {Ends : σ → Nat → Except ε (σ × Nat) → Prop} {state : σ} {index : Nat}

theorem loopWithin_of_stopped (stopped : goesOn state index = false) (turns : Nat) :
    loopWithin goesOn turn turns state index = some (.ok (state, index)) := by
  rw [loopWithin.eq_def, stopped]
  rfl

theorem loopWithin_succ (goes : goesOn state index = true) (turns : Nat) :
    loopWithin goesOn turn (turns + 1) state index =
      match turn state index with
      | .error fault => some (.error fault)
      | .ok (after, next) => loopWithin goesOn turn turns after next := by
  rw [loopWithin.eq_def, goes]
  rfl

/-- A loop of which every turn moves on, within some size, ends. Its outcome is one that no turn
changes: what the loop is bound to come to afterwards, it was bound to come to before. -/
theorem exists_outcome
    (stops : ∀ state index, index ≤ size → goesOn state index = false →
      Ends state index (.ok (state, index)))
    (fails : ∀ state index fault, index ≤ size → goesOn state index = true →
      turn state index = .error fault → Ends state index (.error fault))
    (moves : ∀ state index after next, index ≤ size → goesOn state index = true →
      turn state index = .ok (after, next) →
      index < next ∧ next ≤ size ∧ ∀ outcome, Ends after next outcome → Ends state index outcome)
    (state : σ) (index : Nat) (inside : index ≤ size) :
    ∃ outcome, Ends state index outcome ∧
      ∀ turns, size < index + turns → loopWithin goesOn turn turns state index = some outcome := by
  cases goes : goesOn state index with
  | false => exact ⟨_, stops state index inside goes, fun turns _ => loopWithin_of_stopped goes turns⟩
  | true =>
    have some_turn : ∀ {turns}, size < index + turns → ∃ fewer, turns = fewer + 1 :=
      fun {turns} enough => ⟨turns - 1, by omega⟩
    cases turned : turn state index with
    | error fault =>
      refine ⟨_, fails state index fault inside goes turned, fun turns enough => ?_⟩
      obtain ⟨fewer, rfl⟩ := some_turn enough
      rw [loopWithin_succ goes, turned]
    | ok found =>
      obtain ⟨after, next⟩ := found
      obtain ⟨later, within, keeps⟩ := moves state index after next inside goes turned
      obtain ⟨outcome, ends, reached⟩ := exists_outcome stops fails moves after next within
      refine ⟨outcome, keeps outcome ends, fun turns enough => ?_⟩
      obtain ⟨fewer, rfl⟩ := some_turn enough
      rw [loopWithin_succ goes, turned]
      exact reached fewer (by omega)
termination_by size - index

end Loops

instance (kind : MessageKind) (number : Nat) : Decidable (kind.HoldsFlag number) :=
  match kind with
  | .outputGroup => inferInstanceAs (Decidable (number = 4))
  | .completion => inferInstanceAs (Decidable (number = 1))
  | .event => inferInstanceAs (Decidable (number = 20))
  | .setId | .label | .file | .namedSet | .eventId => inferInstanceAs (Decidable False)

namespace MessageKind

/-- What the loop over a message does after a key: the content of a field that the message knows is
taken in, and any other payload is passed over. -/
def turnAfterKey (kind : MessageKind) (number wireType : Nat) (data : Bytes) (value : kind.Value)
    (index : Nat) : Except (IndexFault Fault) (kind.Value × Nat) :=
  if wireType = 2 ∧ (kind.content? number).isSome then do
    let (content, next) ← delimitedAt data index
    let value ← (kind.absorb value ⟨number, .delimited content⟩).mapError .reported
    return (value, next)
  else if wireType = 0 ∧ kind.HoldsFlag number then do
    let (held, next) ← varintAt data index
    let value ← (kind.absorb value ⟨number, .varint held⟩).mapError .reported
    return (value, next)
  else do
    let ((), next) ← skipAt wireType data index
    return (value, next)

def turn (kind : MessageKind) (data : Bytes) (value : kind.Value) (index : Nat) :
    Except (IndexFault Fault) (kind.Value × Nat) := do
  let ((number, wireType), next) ← keyAt data index
  kind.turnAfterKey number wireType data value next

def loop (kind : MessageKind) (data : Bytes) (turns : Nat) :
    Option (Except (IndexFault Fault) (kind.Value × Nat)) :=
  loopWithin (fun _ index => index < data.length) (kind.turn data) turns kind.empty 0

def takeIn (kind : MessageKind) (value : kind.Value) (bytes : Bytes) :
    Except Fault (kind.Value × Bytes) := do
  let (field, rest) ← readField bytes
  return (← kind.absorb value field, rest)

variable {kind : MessageKind} {value : kind.Value}

theorem wireType_of_readPayload {wireType : Nat} {bytes rest : Bytes} {payload : Payload}
    (read : readPayload wireType bytes = .ok (payload, rest)) : payload.wireType = wireType := by
  unfold readPayload at read
  split at read
  case h_5 => cases read
  all_goals
    obtain ⟨⟨_, _⟩, -, same⟩ := except_map_eq_ok read
    cases same
    rfl

theorem ignores_of_readPayload {number wireType : Nat} {bytes rest : Bytes} {payload : Payload}
    (notContent : ¬(wireType = 2 ∧ (kind.content? number).isSome))
    (notFlag : ¬(wireType = 0 ∧ kind.HoldsFlag number))
    (read : readPayload wireType bytes = .ok (payload, rest)) :
    kind.Ignores ⟨number, payload⟩ := by
  obtain rfl := wireType_of_readPayload read
  cases payload with
  | varint held => exact fun holds => notFlag ⟨rfl, holds⟩
  | delimited content => exact Option.not_isSome_iff_eq_none.1 fun known => notContent ⟨rfl, known⟩
  | fixed64 content => trivial
  | fixed32 content => trivial

def takeInPayload (kind : MessageKind) (value : kind.Value) (number wireType : Nat) (bytes : Bytes) :
    Except Fault (kind.Value × Bytes) := do
  let (payload, rest) ← readPayload wireType bytes
  return (← kind.absorb value ⟨number, payload⟩, rest)

theorem takeIn_eq (bytes : Bytes) :
    kind.takeIn value bytes = readKey bytes >>= fun (found, rest) =>
      kind.takeInPayload value found.1 found.2 rest := by
  rw [takeIn, readField_eq]
  cases readKey bytes with
  | error fault => rfl
  | ok found =>
    simp only [bind, Except.bind, takeInPayload]
    cases readPayload found.1.2 found.2 <;> rfl

theorem takeInPayload_delimited (number : Nat) (bytes : Bytes) :
    kind.takeInPayload value number 2 bytes = readDelimited bytes >>= fun (content, rest) =>
      kind.absorb value ⟨number, .delimited content⟩ >>= fun value => pure (value, rest) := by
  simp only [takeInPayload, readPayload]
  cases readDelimited bytes <;> rfl

theorem takeInPayload_varint (number : Nat) (bytes : Bytes) :
    kind.takeInPayload value number 0 bytes = Varint.decode bytes >>= fun (held, rest) =>
      kind.absorb value ⟨number, .varint held⟩ >>= fun value => pure (value, rest) := by
  simp only [takeInPayload, readPayload]
  cases Varint.decode bytes <;> rfl

theorem takeInPayload_of_skipped {number wireType : Nat}
    (notContent : ¬(wireType = 2 ∧ (kind.content? number).isSome))
    (notFlag : ¬(wireType = 0 ∧ kind.HoldsFlag number)) (bytes : Bytes) :
    kind.takeInPayload value number wireType bytes =
      skip wireType bytes >>= fun (_, rest) => (.ok value : Except Fault _) >>= fun value =>
        pure (value, rest) := by
  rw [takeInPayload, skip]
  cases read : readPayload wireType bytes with
  | error fault => rfl
  | ok found =>
    have ignored := ignores_of_readPayload notContent notFlag read
    simp only [bind, Except.bind, absorb_of_ignores ignored]
    rfl

theorem indexes_turnAfterKey (number wireType : Nat) :
    Indexes (fun data => kind.turnAfterKey number wireType data value)
      (kind.takeInPayload value number wireType) := by
  unfold turnAfterKey
  by_cases isContent : wireType = 2 ∧ (kind.content? number).isSome
  · simp only [if_pos isContent]
    obtain ⟨rfl, -⟩ := isContent
    rw [funext (takeInPayload_delimited number)]
    exact indexes_delimitedAt.bind takes_readDelimited fun content =>
      indexes_return (kind.absorb value ⟨number, .delimited content⟩)
  by_cases isFlag : wireType = 0 ∧ kind.HoldsFlag number
  · simp only [if_neg isContent, if_pos isFlag]
    obtain ⟨rfl, -⟩ := isFlag
    rw [funext (takeInPayload_varint number)]
    exact indexes_varintAt.bind takes_decode fun held =>
      indexes_return (kind.absorb value ⟨number, .varint held⟩)
  · simp only [if_neg isContent, if_neg isFlag]
    rw [funext (takeInPayload_of_skipped isContent isFlag)]
    exact (indexes_skipAt wireType).bind (takes_skip wireType) fun _ => indexes_return (.ok value)

theorem indexes_turn (value : kind.Value) :
    Indexes (fun data => kind.turn data value) (kind.takeIn value) := by
  rw [funext takeIn_eq]
  exact indexes_keyAt.bind takes_readKey fun found => indexes_turnAfterKey found.1 found.2

theorem takes_takeIn : Takes (kind.takeIn value) := by
  intro bytes next rest taken
  obtain ⟨⟨field, tail⟩, read, absorbed⟩ := bind_eq_ok_iff.1 taken
  obtain ⟨after, -, same⟩ := bind_eq_ok_iff.1 absorbed
  cases same
  exact takes_readField _ _ _ read

theorem foldFields_eq_takeIn {bytes : Bytes} (full : bytes ≠ []) :
    foldFields kind.absorb value bytes =
      (kind.takeIn value bytes).bind fun (next, rest) => foldFields kind.absorb next rest := by
  rw [takeIn]
  cases read : readField bytes with
  | error fault => exact foldFields_of_error full read
  | ok found =>
    obtain ⟨field, rest⟩ := found
    obtain ⟨spelled, rfl, isField⟩ := readField_eq_ok_iff.1 read
    rw [isField.foldFields_append]
    simp only [bind, Except.bind]
    cases kind.absorb value field <;> rfl

def left (kind : MessageKind) (data : Bytes) (value : kind.Value) (index : Nat) :
    Except (IndexFault Fault) (kind.Value × Nat) :=
  ((foldFields kind.absorb value (data.drop index)).map fun value =>
    (value, data.length)).mapError .reported

section Turns

variable {data : Bytes} {index : Nat} (inside : index < data.length)

include inside

theorem left_of_turn_error {fault : IndexFault Fault}
    (failed : kind.turn data value index = .error fault) :
    kind.left data value index = .error fault := by
  have full : data.drop index ≠ [] := mt List.drop_eq_nil_iff.1 (Nat.not_le.2 inside)
  obtain ⟨reason, rfl, refused⟩ :=
    (indexes_turn value).exists_reported (Nat.le_of_lt inside) failed
  rw [left, foldFields_eq_takeIn full, refused]
  rfl

theorem left_of_turn_ok {after : kind.Value} {next : Nat}
    (turned : kind.turn data value index = .ok (after, next)) :
    kind.left data value index = kind.left data after next := by
  have full : data.drop index ≠ [] := mt List.drop_eq_nil_iff.1 (Nat.not_le.2 inside)
  have taken := ((indexes_turn value).eq_ok_iff (Nat.le_of_lt inside)).1 turned
  obtain ⟨-, -, inner⟩ := takes_takeIn.of_readAt taken
  rw [left, foldFields_eq_takeIn full, inner]
  rfl

end Turns

/-- The loop over a message ends, with what reading the message gives; where that is a value, it has
come to the end of the bytes. -/
theorem loop_eq (kind : MessageKind) (data : Bytes) {turns : Nat} (enough : data.length < turns) :
    kind.loop data turns =
      some (((kind.decode data).map fun value => (value, data.length)).mapError .reported) := by
  have stops : ∀ value index, index ≤ data.length → decide (index < data.length) = false →
      .ok (value, index) = kind.left data value index := by
    intro value index inside stopped
    obtain rfl : index = data.length := by
      have reached := of_decide_eq_false stopped
      omega
    rw [left, List.drop_length, foldFields_nil]
    rfl
  have fails : ∀ value index fault, index ≤ data.length → decide (index < data.length) = true →
      kind.turn data value index = .error fault → .error fault = kind.left data value index :=
    fun _ _ _ _ before failed => (left_of_turn_error (of_decide_eq_true before) failed).symm
  have moves : ∀ value index after next, index ≤ data.length →
      decide (index < data.length) = true → kind.turn data value index = .ok (after, next) →
      index < next ∧ next ≤ data.length ∧
        ∀ outcome, outcome = kind.left data after next → outcome = kind.left data value index := by
    intro value index after next inside before turned
    obtain ⟨later, within⟩ := (indexes_turn value).movesOn takes_takeIn data index _ _ inside turned
    refine ⟨later, within, ?_⟩
    rintro outcome rfl
    exact (left_of_turn_ok (of_decide_eq_true before) turned).symm
  obtain ⟨outcome, rfl, reached⟩ := exists_outcome stops fails moves kind.empty 0 (Nat.zero_le _)
  exact reached turns (by omega)

end MessageKind

def hasEnded (events : List BuildEvent) : Bool :=
  events.getLast?.any BuildEvent.lastMessage

def logTurn (data : Bytes) (events : List BuildEvent) (index : Nat) :
    Except (IndexFault LogContents) (List BuildEvent × Nat) :=
  if data.length ≤ index then .error (.reported ⟨events, some (.ended, index)⟩)
  else
    match delimitedAt data index with
    | .error .outOfRange => .error .outOfRange
    | .error (.reported fault) => .error (.reported ⟨events, some (.malformed fault, index)⟩)
    | .ok (content, next) =>
      match BuildEvent.decode content with
      | .error fault => .error (.reported ⟨events, some (.malformed fault, index)⟩)
      | .ok event => .ok (events ++ [event], next)

def logLoop (data : Bytes) (turns : Nat) :
    Option (Except (IndexFault LogContents) (List BuildEvent × Nat)) :=
  loopWithin (fun events _ => !hasEnded events) (logTurn data) turns [] 0

def contentsFrom (data : Bytes) (events : List BuildEvent) (index : Nat) : LogContents :=
  if hasEnded events then ⟨events, none⟩
  else
    let contents := readLogFrom index (data.drop index)
    ⟨events ++ contents.events, contents.broken⟩

/-- How the reading of a log ends: with the last message, at an index within the bytes, or with the
break of the log. -/
inductive LogContents.EndsWith (size : Nat) :
    LogContents → Except (IndexFault LogContents) (List BuildEvent × Nat) → Prop where
  | last {events : List BuildEvent} {index : Nat} : index ≤ size →
      EndsWith size ⟨events, none⟩ (.ok (events, index))
  | broken {events : List BuildEvent} {fault : LogFault} {offset : Nat} :
      EndsWith size ⟨events, some (fault, offset)⟩
        (.error (.reported ⟨events, some (fault, offset)⟩))

section Log

variable {data : Bytes} {events : List BuildEvent} {index : Nat}

theorem takes_readEvent : Takes readEvent := by
  intro bytes event rest read
  obtain ⟨frame, same, framed⟩ := readEvent_eq_ok_iff.1 read
  exact ⟨frame, framed.ne_nil, same⟩

theorem logTurn_eq (events : List BuildEvent) (inside : index ≤ data.length) :
    logTurn data events index =
      match readAt readEvent data index with
      | .error fault => .error (.reported ⟨events, some (fault, index)⟩)
      | .ok (event, next) => .ok (events ++ [event], next) := by
  rw [logTurn, readAt, readEvent]
  by_cases atEnd : data.length ≤ index
  · rw [if_pos atEnd, if_pos (List.drop_eq_nil_of_le atEnd)]
    rfl
  · have full : data.drop index ≠ [] := mt List.drop_eq_nil_iff.1 atEnd
    rw [if_neg atEnd, if_neg full, indexes_delimitedAt data index inside, readAt]
    cases readDelimited (data.drop index) with
    | error fault => rfl
    | ok found =>
      simp only [Except.map, Except.mapError]
      cases BuildEvent.decode found.1 <;> rfl

theorem hasEnded_concat (events : List BuildEvent) (event : BuildEvent) :
    hasEnded (events ++ [event]) = event.lastMessage := by
  rw [hasEnded, List.getLast?_concat]
  rfl

theorem contentsFrom_of_error {fault : LogFault} (more : hasEnded events = false)
    (failed : readAt readEvent data index = .error fault) :
    contentsFrom data events index = ⟨events, some (fault, index)⟩ := by
  rw [contentsFrom, more, readLogFrom_of_error (readAt_eq_error_iff.1 failed)]
  simp

theorem contentsFrom_of_ok {event : BuildEvent} {next : Nat} (more : hasEnded events = false)
    (read : readAt readEvent data index = .ok (event, next)) :
    contentsFrom data events index = contentsFrom data (events ++ [event]) next := by
  obtain ⟨later, within, inner⟩ := takes_readEvent.of_readAt read
  have place : index + ((data.drop index).length - (data.drop next).length) = next := by
    simp only [List.length_drop]
    omega
  rw [contentsFrom, contentsFrom, more, hasEnded_concat, readLogFrom_of_ok inner, place]
  cases event.lastMessage <;> simp

end Log

/-- The loop over a log ends, and tells what reading the log tells. -/
theorem exists_logLoop (data : Bytes) :
    ∃ outcome, (readLog data).EndsWith data.length outcome ∧
      ∀ turns, data.length < turns → logLoop data turns = some outcome := by
  have stops : ∀ events index, index ≤ data.length → (!hasEnded events) = false →
      (contentsFrom data events index).EndsWith data.length (.ok (events, index)) := by
    intro events index inside stopped
    rw [contentsFrom, if_pos (by simpa using stopped)]
    exact .last inside
  have fails : ∀ events index fault, index ≤ data.length → (!hasEnded events) = true →
      logTurn data events index = .error fault →
      (contentsFrom data events index).EndsWith data.length (.error fault) := by
    intro events index fault inside goes turned
    rw [logTurn_eq events inside] at turned
    split at turned
    next reason failed =>
      cases turned
      rw [contentsFrom_of_error (by simpa using goes) failed]
      exact .broken
    next => cases turned
  have moves : ∀ events index after next, index ≤ data.length → (!hasEnded events) = true →
      logTurn data events index = .ok (after, next) →
      index < next ∧ next ≤ data.length ∧ ∀ outcome,
        (contentsFrom data after next).EndsWith data.length outcome →
          (contentsFrom data events index).EndsWith data.length outcome := by
    intro events index after next inside goes turned
    rw [logTurn_eq events inside] at turned
    split at turned
    next => cases turned
    next event reached read =>
      cases turned
      obtain ⟨later, within, -⟩ := takes_readEvent.of_readAt read
      rw [contentsFrom_of_ok (by simpa using goes) read]
      exact ⟨later, within, fun _ => id⟩
  obtain ⟨outcome, ends, reached⟩ := exists_outcome stops fails moves [] 0 (Nat.zero_le _)
  have whole : contentsFrom data [] 0 = readLog data := rfl
  rw [whole] at ends
  exact ⟨outcome, ends, fun turns enough => reached turns (by omega)⟩

/-- Every reader of the wire format moves on where it succeeds, not beyond the end, and asks for no
byte that is not there; content and text are what stands between the end of the length and where the
reader has come to. So every loop over them ends on all bytes: that over a message with what reading
the message gives, having come to the end of the bytes if it is a value, and that over a log with
what the log tells. -/
theorem readers_move_on_and_loops_end :
    (Reads varintAt decode ∧ Reads keyAt readKey ∧ Reads delimitedAt readDelimited ∧
      Reads (fixedAt 4) (readFixed 4) ∧ Reads (fixedAt 8) (readFixed 8) ∧
      (∀ wireType, Reads (skipAt wireType) (skip wireType)) ∧ Reads textAt readText) ∧
    (∀ data offset, offset ≤ data.length →
      (∀ content next, delimitedAt data offset = .ok (content, next) →
        IsContent data offset content next) ∧
      ∀ text next, textAt data offset = .ok (text, next) →
        IsContent data offset (Utf8.encode text) next) ∧
    (∀ (kind : MessageKind) (value : kind.Value),
      Reads (fun data => kind.turn data value) (kind.takeIn value)) ∧
    (∀ (kind : MessageKind) (data : Bytes) (turns : Nat), data.length < turns →
      kind.loop data turns =
        some (((kind.decode data).map fun value => (value, data.length)).mapError .reported)) ∧
    ∀ data, ∃ outcome, (readLog data).EndsWith data.length outcome ∧
      ∀ turns, data.length < turns → logLoop data turns = some outcome := by
  refine ⟨⟨?_, ?_, ?_, ?_, ?_, ?_, ?_⟩, ?_, ?_, fun kind data _ => kind.loop_eq data, exists_logLoop⟩
  · exact indexes_varintAt.reads takes_decode
  · exact indexes_keyAt.reads takes_readKey
  · exact indexes_delimitedAt.reads takes_readDelimited
  · exact (indexes_fixedAt 4).reads (takes_readFixed (by decide))
  · exact (indexes_fixedAt 8).reads (takes_readFixed (by decide))
  · exact fun wireType => (indexes_skipAt wireType).reads (takes_skip wireType)
  · exact indexes_textAt.reads takes_readText
  · exact fun data offset inside =>
      ⟨fun _ _ => isContent_of_delimitedAt inside, fun _ _ => isContent_of_textAt inside⟩
  · exact fun kind value => (MessageKind.indexes_turn value).reads MessageKind.takes_takeIn

end GoMetadata
