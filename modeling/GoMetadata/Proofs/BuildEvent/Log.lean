import GoMetadata.BuildEvent
import GoMetadata.Proofs.BuildEvent.RoundTrip
import Mathlib.Data.List.Forall2

/-!
What a log tells: events, each in a frame of its length and its bytes, up to and including the
first that says that it is the last. The bytes after that may be anything.
-/

namespace GoMetadata

open Wire Varint

inductive IsFrame : Bytes → BuildEvent → Prop where
  | intro {size content : Bytes} {event : BuildEvent} : IsVarint size content.length →
      BuildEvent.decode content = .ok event → IsFrame (size ++ content) event

inductive Tells : Bytes → List BuildEvent → Prop where
  | last {frame rest : Bytes} {event : BuildEvent} : IsFrame frame event →
      event.lastMessage = true → Tells (frame ++ rest) [event]
  | more {frame rest : Bytes} {event : BuildEvent} {events : List BuildEvent} :
      IsFrame frame event → event.lastMessage = false → Tells rest events →
      Tells (frame ++ rest) (event :: events)

theorem Tells.append {bytes : Bytes} {events : List BuildEvent} (tells : Tells bytes events)
    (rest : Bytes) : Tells (bytes ++ rest) events := by
  induction tells with
  | last framed last =>
    rw [List.append_assoc]
    exact .last framed last
  | more framed more _ ih =>
    rw [List.append_assoc]
    exact .more framed more ih

theorem IsFrame.readEvent_append {frame : Bytes} {event : BuildEvent} (framed : IsFrame frame event)
    (rest : Bytes) : readEvent (frame ++ rest) = .ok (event, rest) := by
  cases framed with
  | @intro size content _ varint decoded =>
    have read := readDelimited_append varint rest
    have full : size ++ content ++ rest ≠ [] := by
      intro empty
      rw [empty] at read
      cases read
    rw [readEvent, if_neg full, read]
    simp only [decoded]

theorem readEvent_eq_ok_iff {bytes rest : Bytes} {event : BuildEvent} :
    readEvent bytes = .ok (event, rest) ↔ ∃ frame, bytes = frame ++ rest ∧ IsFrame frame event := by
  constructor
  · intro read
    unfold readEvent at read
    split at read
    · cases read
    split at read
    · cases read
    next content tail delimited =>
      split at read
      · cases read
      next decoded =>
        simp only [Except.ok.injEq, Prod.mk.injEq] at read
        obtain ⟨rfl, rfl⟩ := read
        obtain ⟨size, rfl, varint⟩ := exists_of_readDelimited delimited
        exact ⟨size ++ content, rfl, .intro varint decoded⟩
  · rintro ⟨frame, rfl, framed⟩
    exact framed.readEvent_append rest

theorem readLogFrom_of_error {bytes : Bytes} {fault : LogFault}
    (failed : readEvent bytes = .error fault) (offset : Nat) :
    readLogFrom offset bytes = ⟨[], some (fault, offset)⟩ := by
  rw [readLogFrom]
  split
  next other found =>
    rw [failed] at found
    cases found
    rfl
  next found =>
    rw [failed] at found
    cases found

theorem readLogFrom_of_ok {bytes rest : Bytes} {event : BuildEvent}
    (read : readEvent bytes = .ok (event, rest)) (offset : Nat) :
    readLogFrom offset bytes =
      if event.lastMessage then ⟨[event], none⟩
      else
        let contents := readLogFrom (offset + (bytes.length - rest.length)) rest
        ⟨event :: contents.events, contents.broken⟩ := by
  rw [readLogFrom]
  split
  next found =>
    rw [read] at found
    cases found
  next found =>
    rw [read] at found
    cases found
    rfl

/-- Reading passes frames, unless they hold the last message, and comes to what follows them. -/
theorem readLogFrom_frames_append {frames : List Bytes} {events : List BuildEvent}
    (framed : List.Forall₂ IsFrame frames events)
    (more : ∀ event ∈ events, event.lastMessage = false) (offset : Nat) (rest : Bytes) :
    readLogFrom offset (frames.flatten ++ rest) =
      let contents := readLogFrom (offset + frames.flatten.length) rest
      ⟨events ++ contents.events, contents.broken⟩ := by
  induction framed generalizing offset with
  | nil => rfl
  | @cons frame event frames events head _ ih =>
    obtain ⟨moreHead, moreTail⟩ := List.forall_mem_cons.1 more
    have notLast : ¬event.lastMessage = true := by simp [moreHead]
    -- The bytes passed so far and those of the other frames are those of all frames.
    have passed : offset + ((frame ++ (frames.flatten ++ rest)).length -
        (frames.flatten ++ rest).length) + frames.flatten.length =
          offset + (frame ++ frames.flatten).length := by
      simp only [List.length_append]
      omega
    rw [List.flatten_cons, List.append_assoc, readLogFrom_of_ok (head.readEvent_append _),
      if_neg notLast, ih moreTail, passed]
    rfl

/-- A log is read without a fault exactly where it tells events, which are then what is read. -/
theorem readLogFrom_eq_iff_tells {offset : Nat} {bytes : Bytes} {events : List BuildEvent} :
    readLogFrom offset bytes = ⟨events, none⟩ ↔ Tells bytes events := by
  constructor
  · intro read
    fun_induction readLogFrom offset bytes generalizing events
    case case1 => cases read
    case case2 offset bytes event rest head last =>
      cases read
      obtain ⟨frame, rfl, framed⟩ := readEvent_eq_ok_iff.1 head
      exact .last framed last
    case case3 offset bytes event rest head more contents ih =>
      simp only [LogContents.mk.injEq] at read
      obtain ⟨rfl, unbroken⟩ := read
      obtain ⟨frame, rfl, framed⟩ := readEvent_eq_ok_iff.1 head
      exact .more framed (eq_false_of_ne_true more) (ih (by rw [← unbroken]))
  · intro tells
    induction tells generalizing offset with
    | last framed last => rw [readLogFrom_of_ok (framed.readEvent_append _), if_pos last]
    | more framed more _ ih =>
      rw [readLogFrom_of_ok (framed.readEvent_append _), if_neg (by simp [more]), ih]

theorem isFrame_encodeDelimited {event : BuildEvent} (small : event.encode.length < 2 ^ 70) :
    IsFrame (encodeDelimited event.encode) event :=
  .intro (isVarint_encode small) (BuildEvent.decode_encode small)

theorem tells_encodeLog (events : List BuildEvent) (last : BuildEvent)
    (small : ∀ event ∈ events ++ [last], event.encode.length < 2 ^ 70)
    (more : ∀ event ∈ events, event.lastMessage = false) (isLast : last.lastMessage = true)
    (rest : Bytes) : Tells (encodeLog (events ++ [last]) ++ rest) (events ++ [last]) := by
  induction events with
  | nil =>
    have framed := isFrame_encodeDelimited (small last (List.mem_singleton_self _))
    have tells : Tells (encodeDelimited last.encode ++ rest) [last] := .last framed isLast
    simpa [encodeLog] using tells
  | cons event events ih =>
    obtain ⟨smallHead, smallTail⟩ := List.forall_mem_cons.1 small
    obtain ⟨moreHead, moreTail⟩ := List.forall_mem_cons.1 more
    have tells := Tells.more (isFrame_encodeDelimited smallHead) moreHead (ih smallTail moreTail)
    simpa [encodeLog] using tells

end GoMetadata
