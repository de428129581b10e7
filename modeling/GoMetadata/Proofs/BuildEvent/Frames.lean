import GoMetadata.Proofs.BuildEvent.Grammar
import GoMetadata.Proofs.BuildEvent.WrittenLog

/-!
What is read from bytes of any kind. They begin with frames of events, one behind the other, and
reading stops behind the first last message or where no frame of an event begins; that place is the
one which its error names. What stands behind the last message is not looked at.
-/

namespace GoMetadata

open Wire Varint

theorem IsFrame.ne_nil {frame : Bytes} {event : BuildEvent} (framed : IsFrame frame event) :
    frame ≠ [] := by
  rintro rfl
  have ended : readEvent [] = .error .ended := rfl
  have read := framed.readEvent_append []
  rw [List.append_nil, ended] at read
  cases read

def BeginsWithFrame (bytes : Bytes) : Prop :=
  ∃ size content, size ++ content <+: bytes ∧ IsVarint size content.length ∧
    WellFormed .event content

theorem beginsWithFrame_iff {bytes : Bytes} :
    BeginsWithFrame bytes ↔ ∃ event rest, readEvent bytes = .ok (event, rest) := by
  constructor
  · rintro ⟨size, content, ⟨rest, rfl⟩, varint, wellFormed⟩
    obtain ⟨event, decoded⟩ := accepts_of_wellFormed wellFormed
    exact ⟨event, rest, (IsFrame.intro varint decoded).readEvent_append rest⟩
  · rintro ⟨event, rest, read⟩
    obtain ⟨frame, rfl, framed⟩ := readEvent_eq_ok_iff.1 read
    cases framed with
    | @intro size content _ varint decoded =>
      have wellFormed : WellFormed .event content := wellFormed_of_accepts ⟨event, decoded⟩
      exact ⟨size, content, List.prefix_append _ _, varint, wellFormed⟩

/-- No event can be read where the bytes end, or else where they do not begin with a frame. -/
theorem ended_or_not_beginsWithFrame {bytes : Bytes} {fault : LogFault}
    (failed : readEvent bytes = .error fault) :
    bytes = [] ∧ fault = .ended ∨ bytes ≠ [] ∧ ¬BeginsWithFrame bytes := by
  by_cases empty : bytes = []
  · refine .inl ⟨empty, ?_⟩
    rw [readEvent, if_pos empty, Except.error.injEq] at failed
    exact failed.symm
  · refine .inr ⟨empty, fun begins => ?_⟩
    obtain ⟨event, rest, read⟩ := beginsWithFrame_iff.1 begins
    rw [failed] at read
    cases read

/-- How the reading of bytes divides them: into the frames of the events that are read, and a rest
that nothing is read from. -/
structure Divides (bytes : Bytes) (contents : LogContents) (offset : Nat) (frames : List Bytes)
    (rest : Bytes) : Prop where
  whole : bytes = frames.flatten ++ rest
  framed : List.Forall₂ IsFrame frames contents.events
  more : ∀ event ∈ contents.events.dropLast, event.lastMessage = false
  last : contents.broken = none →
    ∃ event, contents.events.getLast? = some event ∧ event.lastMessage = true
  stopped : ∀ fault place, contents.broken = some (fault, place) →
    place = offset + frames.flatten.length ∧ readEvent rest = .error fault ∧
      ∀ event ∈ contents.events, event.lastMessage = false

theorem forall_mem_dropLast_cons {α : Type} {p : α → Prop} {head : α} {tail : List α}
    (holds : p head) (others : ∀ item ∈ tail.dropLast, p item) :
    ∀ item ∈ (head :: tail).dropLast, p item := by
  cases tail with
  | nil => exact fun _ => nofun
  | cons next rest =>
    rw [List.dropLast_cons_cons]
    exact List.forall_mem_cons.2 ⟨holds, others⟩

theorem exists_divides (offset : Nat) (bytes : Bytes) :
    ∃ frames rest, Divides bytes (readLogFrom offset bytes) offset frames rest := by
  fun_induction readLogFrom offset bytes
  case case1 offset bytes fault failed =>
    refine ⟨[], bytes, rfl, .nil, List.forall_mem_nil _, fun same => ?_, fun _ _ same => ?_⟩
    · cases same
    · cases same
      exact ⟨rfl, failed, List.forall_mem_nil _⟩
  case case2 offset bytes event rest read last =>
    obtain ⟨frame, rfl, framed⟩ := readEvent_eq_ok_iff.1 read
    refine ⟨[frame], rest, ?_, .cons framed .nil, List.forall_mem_nil _,
      fun _ => ⟨event, rfl, last⟩, fun _ _ same => ?_⟩
    · rw [List.flatten_singleton]
    · cases same
  case case3 offset bytes event rest read more contents ih =>
    obtain ⟨frame, rfl, framed⟩ := readEvent_eq_ok_iff.1 read
    obtain ⟨frames, tail, divides⟩ := ih
    have notLast : event.lastMessage = false := eq_false_of_ne_true more
    refine ⟨frame :: frames, tail, ?_, .cons framed divides.framed, ?_, ?_, ?_⟩
    · rw [divides.whole, List.flatten_cons, List.append_assoc]
    · exact forall_mem_dropLast_cons notLast divides.more
    · intro unbroken
      obtain ⟨last, found, isLast⟩ := divides.last unbroken
      refine ⟨last, ?_, isLast⟩
      rw [List.getLast?_cons, found]
      rfl
    · intro fault place same
      obtain ⟨placed, failed, others⟩ := divides.stopped fault place same
      refine ⟨?_, failed, List.forall_mem_cons.2 ⟨notLast, others⟩⟩
      rw [placed, List.flatten_cons, List.length_append, List.length_append]
      omega

theorem Divides.exists_frames {bytes rest : Bytes} {contents : LogContents} {offset : Nat}
    {frames : List Bytes} (divides : Divides bytes contents offset frames rest)
    {first behind : List BuildEvent} (split : contents.events = first ++ behind) :
    ∃ front : List Bytes, front.flatten <+: bytes ∧ List.Forall₂ IsFrame front first := by
  refine ⟨frames.take first.length, ?_, ?_⟩
  · refine ⟨(frames.drop first.length).flatten ++ rest, ?_⟩
    rw [← List.append_assoc, ← List.flatten_append, List.take_append_drop, divides.whole]
  · exact List.forall₂_take_append frames first behind (split ▸ divides.framed)

theorem tells_of_frames {frames : List Bytes} {events : List BuildEvent} {last : BuildEvent}
    (framed : List.Forall₂ IsFrame frames events)
    (more : ∀ event ∈ events.dropLast, event.lastMessage = false)
    (found : events.getLast? = some last) (isLast : last.lastMessage = true) (rest : Bytes) :
    Tells (frames.flatten ++ rest) events := by
  induction framed with
  | nil => cases found
  | @cons frame event frames events head tail ih =>
    rw [List.flatten_cons, List.append_assoc]
    cases events with
    | nil =>
      cases found
      exact List.forall₂_nil_right_iff.1 tail ▸ .last head isLast
    | cons next others =>
      rw [List.dropLast_cons_cons] at more
      rw [List.getLast?_cons_cons] at found
      obtain ⟨moreHead, moreTail⟩ := List.forall_mem_cons.1 more
      exact .more head moreHead (ih moreTail found)

namespace Divides

variable {bytes rest : Bytes} {contents : LogContents} {offset : Nat} {frames : List Bytes}

theorem unbroken_iff (divides : Divides bytes contents offset frames rest) :
    contents.broken = none ↔
      ∃ last, contents.events.getLast? = some last ∧ last.lastMessage = true := by
  refine ⟨divides.last, fun ⟨last, found, isLast⟩ => ?_⟩
  cases broken : contents.broken with
  | none => rfl
  | some stop =>
    obtain ⟨-, -, others⟩ := divides.stopped stop.1 stop.2 broken
    have notLast := others last (List.mem_of_getLast? found)
    rw [isLast] at notLast
    cases notLast

/-- Once the last message was read, all bytes that begin with the same frames are read alike. -/
theorem readLog_of_prefix (divides : Divides bytes contents offset frames rest)
    (unbroken : contents.broken = none) {other : Bytes} (begins : frames.flatten <+: other) :
    readLog other = contents := by
  obtain ⟨last, found, isLast⟩ := divides.last unbroken
  obtain ⟨tail, rfl⟩ := begins
  have tells := tells_of_frames divides.framed divides.more found isLast tail
  rw [readLog, readLogFrom_eq_iff_tells.2 tells]
  exact congrArg (LogContents.mk _) unbroken.symm

theorem ended_or_stuck (divides : Divides bytes contents offset frames rest) {fault : LogFault}
    {place : Nat} (broken : contents.broken = some (fault, place)) :
    frames.flatten.length = bytes.length ∧ fault = .ended ∨
      frames.flatten.length < bytes.length ∧
        ¬BeginsWithFrame (bytes.drop frames.flatten.length) := by
  obtain ⟨-, failed, -⟩ := divides.stopped fault place broken
  rw [divides.whole, List.length_append, List.drop_left]
  rcases ended_or_not_beginsWithFrame failed with ⟨rfl, ended⟩ | ⟨more, absent⟩
  · exact .inl ⟨rfl, ended⟩
  · exact .inr ⟨Nat.lt_add_of_pos_right (List.length_pos_iff.2 more), absent⟩

end Divides

/-- Places in a log between which the frames of its events stand. -/
structure Boundaries (bytes : Bytes) (events : List BuildEvent) (boundary : Nat → Nat) : Prop where
  start : boundary 0 = 0
  ascending : ∀ i < events.length, boundary i < boundary (i + 1)
  inside : boundary events.length ≤ bytes.length
  framed : ∀ i (known : i < events.length),
    IsFrame (bytes.extract (boundary i) (boundary (i + 1))) events[i]

def lengthOfFirst (frames : List Bytes) (count : Nat) : Nat :=
  (frames.take count).flatten.length

theorem lengthOfFirst_succ {frames : List Bytes} {i : Nat} (known : i < frames.length) :
    lengthOfFirst frames (i + 1) = lengthOfFirst frames i + frames[i].length := by
  rw [lengthOfFirst, List.take_succ_eq_append_getElem known, List.flatten_append,
    List.length_append, List.flatten_singleton]
  rfl

theorem extract_frame {frames : List Bytes} {i : Nat} (known : i < frames.length) (rest : Bytes) :
    (frames.flatten ++ rest).extract (lengthOfFirst frames i) (lengthOfFirst frames (i + 1)) =
      frames[i] := by
  have split : frames.flatten ++ rest =
      (frames.take i).flatten ++ (frames[i] ++ ((frames.drop (i + 1)).flatten ++ rest)) := by
    calc
      _ = (frames.take i ++ frames[i] :: frames.drop (i + 1)).flatten ++ rest := by
        rw [← List.drop_eq_getElem_cons known, List.take_append_drop]
      _ = _ := by
        rw [List.flatten_append, List.flatten_cons, List.append_assoc, List.append_assoc]
  rw [List.extract_eq_take_drop, lengthOfFirst_succ known, Nat.add_sub_cancel_left, split,
    lengthOfFirst, List.drop_left, List.take_left]

theorem boundaries_of_frames {frames : List Bytes} {events : List BuildEvent}
    (framed : List.Forall₂ IsFrame frames events) (rest : Bytes) :
    Boundaries (frames.flatten ++ rest) events (lengthOfFirst frames) := by
  have same := framed.length_eq
  constructor
  · rfl
  · intro i known
    have filled := (framed.get (same ▸ known) known).ne_nil
    have positive := List.length_pos_iff.2 filled
    rw [lengthOfFirst_succ (same ▸ known)]
    exact Nat.lt_add_of_pos_right positive
  · rw [lengthOfFirst, ← same, List.take_length, List.length_append]
    exact Nat.le_add_right _ _
  · intro i known
    rw [extract_frame (same ▸ known)]
    exact framed.get (same ▸ known) known

/-- Bytes of any kind are read as the events of frames at their head. Without an error this ends
behind the last message, and does so whatever follows it; every error names the place behind the
frames, where the bytes end or no further frame begins. -/
theorem readLog_boundaries (bytes : Bytes) :
    let contents := readLog bytes
    ∃ boundary, Boundaries bytes contents.events boundary ∧
      (∀ event ∈ contents.events.dropLast, event.lastMessage = false) ∧
      (contents.error? = none ↔
        ∃ last, contents.events.getLast? = some last ∧ last.lastMessage = true) ∧
      (contents.error? = none → ∀ other,
        bytes.take (boundary contents.events.length) <+: other → readLog other = contents) ∧
      ∀ error, contents.error? = some error →
        ∃ reason, error = .brokenLog reason (some (boundary contents.events.length)) ∧
          (boundary contents.events.length = bytes.length ∧
              reason = "stream ended before the last message" ∨
            boundary contents.events.length < bytes.length ∧
              ¬BeginsWithFrame (bytes.drop (boundary contents.events.length))) := by
  intro contents
  obtain ⟨frames, rest, divides⟩ : ∃ frames rest, Divides bytes contents 0 frames rest :=
    exists_divides 0 bytes
  have boundaries := boundaries_of_frames divides.framed rest
  rw [← divides.whole] at boundaries
  have reached : lengthOfFirst frames contents.events.length = frames.flatten.length := by
    rw [lengthOfFirst, ← divides.framed.length_eq, List.take_length]
  have unbroken_iff : contents.error? = none ↔ contents.broken = none := Option.map_eq_none_iff
  refine ⟨lengthOfFirst frames, boundaries, divides.more, ?_, ?_, ?_⟩
  · rw [unbroken_iff]
    exact divides.unbroken_iff
  · intro whole other begins
    rw [reached, divides.whole, List.take_left] at begins
    exact divides.readLog_of_prefix (unbroken_iff.1 whole) begins
  · intro error stopped
    obtain ⟨⟨fault, place⟩, broken, rfl⟩ := Option.map_eq_some_iff.1 stopped
    obtain ⟨rfl, -, -⟩ := divides.stopped fault place broken
    rw [reached, Nat.zero_add]
    refine ⟨fault.reason, rfl, ?_⟩
    rcases divides.ended_or_stuck broken with ⟨ended, rfl⟩ | stuck
    · exact .inl ⟨ended, rfl⟩
    · exact .inr stuck

end GoMetadata
