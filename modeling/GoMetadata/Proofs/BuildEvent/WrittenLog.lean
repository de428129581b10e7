import GoMetadata.Proofs.BuildEvent.Log

/-!
Logs that are written, and what is read from them. Reading passes the frames of written events and
comes to whatever stands behind them. So a log is read back up to its first last message, whatever
follows that; and a log that is cut off yields exactly the events whose frames are kept whole, and
then an error at the frame that is not.
-/

namespace GoMetadata

open Wire Varint

def LogContents.error? (contents : LogContents) : Option DriverError :=
  contents.broken.map fun (fault, offset) => fault.error offset

theorem encodeLog_cons (event : BuildEvent) (events : List BuildEvent) :
    encodeLog (event :: events) = encodeDelimited event.encode ++ encodeLog events :=
  List.flatMap_cons

theorem encodeLog_append (events others : List BuildEvent) :
    encodeLog (events ++ others) = encodeLog events ++ encodeLog others :=
  List.flatMap_append

theorem readLogFrom_encodeLog_append {events : List BuildEvent}
    (small : ∀ event ∈ events, event.encode.length < 2 ^ 70)
    (more : ∀ event ∈ events, event.lastMessage = false) (offset : Nat) (rest : Bytes) :
    readLogFrom offset (encodeLog events ++ rest) =
      let contents := readLogFrom (offset + (encodeLog events).length) rest
      ⟨events ++ contents.events, contents.broken⟩ := by
  have framed :
      List.Forall₂ IsFrame (events.map fun event => encodeDelimited event.encode) events :=
    List.forall₂_map_left_iff.2 <| List.forall₂_same.2 fun event member =>
      isFrame_encodeDelimited (small event member)
  rw [encodeLog, List.flatMap_def]
  exact readLogFrom_frames_append framed more offset rest

theorem readLog_of_last {before behind : List BuildEvent} {last : BuildEvent}
    (small : ∀ event ∈ before ++ [last], event.encode.length < 2 ^ 70)
    (more : ∀ event ∈ before, event.lastMessage = false) (isLast : last.lastMessage = true)
    (rest : Bytes) :
    readLog (encodeLog (before ++ last :: behind) ++ rest) = ⟨before ++ [last], none⟩ := by
  have tells := tells_encodeLog before last small more isLast (encodeLog behind ++ rest)
  rw [← List.append_assoc, ← encodeLog_append, ← List.append_cons] at tells
  exact readLogFrom_eq_iff_tells.2 tells

theorem readLog_of_no_last {events : List BuildEvent}
    (small : ∀ event ∈ events, event.encode.length < 2 ^ 70)
    (more : ∀ event ∈ events, event.lastMessage = false) :
    readLog (encodeLog events) = ⟨events, some (.ended, (encodeLog events).length)⟩ := by
  have ended : readEvent [] = .error .ended := rfl
  have read := readLogFrom_encodeLog_append small more 0 []
  rw [List.append_nil, readLogFrom_of_error ended, Nat.zero_add] at read
  rw [readLog, read]
  simp only [List.append_nil]

/-- A log is read back up to its first last message, whatever follows; if there is none, all its
events are read and its end is an error. -/
theorem readLog_encodeLog (events : List BuildEvent) (rest : Bytes)
    (small : ∀ event ∈ events, event.encode.length < 2 ^ 70) :
    ((∃ event ∈ events, event.lastMessage = true) →
      ∃ before last behind, events = before ++ last :: behind ∧
        (∀ event ∈ before, event.lastMessage = false) ∧ last.lastMessage = true ∧
        (readLog (encodeLog events ++ rest)).events = before ++ [last] ∧
        (readLog (encodeLog events ++ rest)).error? = none) ∧
    ((∀ event ∈ events, event.lastMessage = false) →
      (readLog (encodeLog events)).events = events ∧
      (readLog (encodeLog events)).error? =
        some (.brokenLog "stream ended before the last message"
          (some (encodeLog events).length))) := by
  constructor
  · intro present
    obtain ⟨last, found⟩ := Option.isSome_iff_exists.1 (List.find?_isSome.2 present)
    obtain ⟨isLast, before, behind, rfl, others⟩ := List.find?_eq_some_iff_append.1 found
    have more : ∀ event ∈ before, event.lastMessage = false := by
      intro event member
      simpa using others event member
    have front : before ++ [last] <+: before ++ last :: behind :=
      ⟨behind, (List.append_cons ..).symm⟩
    have smallFront : ∀ event ∈ before ++ [last], event.encode.length < 2 ^ 70 :=
      fun event member => small event (front.subset member)
    refine ⟨before, last, behind, rfl, more, isLast, ?_, ?_⟩
    · rw [readLog_of_last smallFront more isLast]
    · rw [readLog_of_last smallFront more isLast]
      rfl
  · intro more
    rw [readLog_of_no_last small more]
    exact ⟨rfl, rfl⟩

/-- A log of three events whose second is the last message, and a log of one event that is not. -/
theorem readLog_encodeLog_last_between :
    let plain : BuildEvent := {}
    let events : List BuildEvent := [plain, { lastMessage := true }, plain]
    ((∃ event ∈ events, event.lastMessage = true) ∧
      ∃ before last behind, events = before ++ last :: behind ∧
        (∀ event ∈ before, event.lastMessage = false) ∧ last.lastMessage = true ∧
        (readLog (encodeLog events ++ [0xff])).events = before ++ [last] ∧
        (readLog (encodeLog events ++ [0xff])).error? = none) ∧
    (readLog (encodeLog [plain])).events = [plain] ∧
    (readLog (encodeLog [plain])).error? =
      some (.brokenLog "stream ended before the last message"
        (some (encodeLog [plain]).length)) := by
  intro plain events
  have present : ∃ event ∈ events, event.lastMessage = true := by decide
  have small : ∀ event ∈ events, event.encode.length < 2 ^ 70 := by decide +kernel
  have smallPlain : ∀ event ∈ [plain], event.encode.length < 2 ^ 70 := by decide +kernel
  exact ⟨⟨present, (readLog_encodeLog events [0xff] small).1 present⟩,
    (readLog_encodeLog [plain] [] smallPlain).2 (by decide)⟩

/-- What a log breaks with if only some bytes of the frame of an event are kept. -/
def BuildEvent.cutFault (event : BuildEvent) (kept : Nat) : LogFault :=
  if kept = 0 then .ended
  else if kept < (Varint.encode event.encode.length).length then .malformed .truncatedVarint
  else .malformed .truncatedDelimited

theorem reason_cutFault (event : BuildEvent) (kept : Nat) :
    (event.cutFault kept).reason =
      if kept = 0 then "stream ended before the last message"
      else if kept < (Varint.encode event.encode.length).length then "truncated varint"
      else "truncated length-delimited field" := by
  unfold BuildEvent.cutFault
  split
  · rfl
  · split <;> rfl

theorem readEvent_of_cut {event : BuildEvent} {part : Bytes}
    (small : event.encode.length < 2 ^ 70) (cut : part <+: encodeDelimited event.encode)
    (short : part ≠ encodeDelimited event.encode) :
    readEvent part = .error (event.cutFault part.length) := by
  have read := readDelimited_of_cut (isVarint_encode small) cut short
  by_cases empty : part = []
  · rw [empty]
    rfl
  · have kept : ¬part.length = 0 := fun none => empty (List.length_eq_zero_iff.1 none)
    rw [readEvent, if_neg empty, read, BuildEvent.cutFault, if_neg kept]
    exact congrArg Except.error (apply_ite LogFault.malformed ..)

theorem exists_frame_of_cut {events : List BuildEvent} {kept : Bytes}
    (cut : kept <+: encodeLog events) (short : kept ≠ encodeLog events) :
    ∃ whole next lost part, events = whole ++ next :: lost ∧ kept = encodeLog whole ++ part ∧
      part <+: encodeDelimited next.encode ∧ part ≠ encodeDelimited next.encode := by
  induction events generalizing kept with
  | nil => exact absurd (List.prefix_nil.1 cut) short
  | cons event events ih =>
    rw [encodeLog_cons] at cut short
    by_cases passed : encodeDelimited event.encode <+: kept
    · obtain ⟨later, rfl⟩ := passed
      have laterCut : later <+: encodeLog events := (List.prefix_append_right_inj _).1 cut
      have laterShort : later ≠ encodeLog events := fun same => short (same ▸ rfl)
      obtain ⟨whole, next, lost, part, rfl, rfl, partCut, partShort⟩ := ih laterCut laterShort
      refine ⟨event :: whole, next, lost, part, rfl, ?_, partCut, partShort⟩
      rw [encodeLog_cons, List.append_assoc]
    · have inside : kept <+: encodeDelimited event.encode :=
        (List.prefix_or_prefix_of_prefix cut (List.prefix_append _ _)).resolve_right passed
      exact ⟨[], event, events, kept, rfl, rfl, inside,
        fun same => passed (same ▸ List.prefix_refl _)⟩

/-- How the reading of a log ends that is cut off within the frame of an event, behind the frames
of the events before it. -/
structure BreaksIn (whole : List BuildEvent) (next : BuildEvent) (kept : Bytes) : Prop where
  inside : encodeLog whole <+: kept
  cut : kept.length < (encodeLog (whole ++ [next])).length
  events : (readLog kept).events = whole
  error : (readLog kept).error? = some (.brokenLog
    (if kept.length = (encodeLog whole).length then "stream ended before the last message"
      else if kept.length <
        (encodeLog whole).length + (Varint.encode next.encode.length).length then "truncated varint"
      else "truncated length-delimited field")
    (some (encodeLog whole).length))

theorem breaksIn_of_cut {whole : List BuildEvent} {next : BuildEvent} {part : Bytes}
    (small : ∀ event ∈ whole ++ [next], event.encode.length < 2 ^ 70)
    (more : ∀ event ∈ whole, event.lastMessage = false)
    (cut : part <+: encodeDelimited next.encode) (short : part ≠ encodeDelimited next.encode) :
    BreaksIn whole next (encodeLog whole ++ part) := by
  obtain ⟨smallWhole, smallNext⟩ := List.forall_mem_append.1 small
  have broken := readEvent_of_cut (smallNext next (List.mem_singleton_self next)) cut short
  have read : readLog (encodeLog whole ++ part) =
      ⟨whole, some (next.cutFault part.length, (encodeLog whole).length)⟩ := by
    rw [readLog, readLogFrom_encodeLog_append smallWhole more, readLogFrom_of_error broken,
      Nat.zero_add]
    simp only [List.append_nil]
  have partShort : part.length ≠ (encodeDelimited next.encode).length :=
    fun same => short (cut.eq_of_length same)
  have partLength := cut.length_le
  constructor
  · exact List.prefix_append _ _
  · have frame : encodeLog [next] = encodeDelimited next.encode := List.append_nil _
    rw [encodeLog_append, frame, List.length_append, List.length_append]
    omega
  · rw [read]
  · rw [read]
    simp only [LogContents.error?, Option.map_some, LogFault.error, reason_cutFault,
      List.length_append, Nat.add_eq_left, Nat.add_lt_add_iff_left]

/-- No log that is cut off is taken for a whole one: the events are read whose frames are kept, and
then the first frame that is not kept whole is where the log breaks. -/
theorem readLog_of_cut (events : List BuildEvent) (last : BuildEvent) (kept : Bytes)
    (small : ∀ event ∈ events ++ [last], event.encode.length < 2 ^ 70)
    (more : ∀ event ∈ events, event.lastMessage = false)
    (cut : kept <+: encodeLog (events ++ [last])) (short : kept ≠ encodeLog (events ++ [last])) :
    ∃ whole next lost, events ++ [last] = whole ++ next :: lost ∧ BreaksIn whole next kept := by
  obtain ⟨whole, next, lost, part, same, rfl, partCut, partShort⟩ := exists_frame_of_cut cut short
  have front : whole ++ [next] <+: events ++ [last] := ⟨lost, by rw [same, ← List.append_cons]⟩
  have smallFront : ∀ event ∈ whole ++ [next], event.encode.length < 2 ^ 70 :=
    fun event member => small event (front.subset member)
  -- The last event, if its frame is reached at all, is the one that is cut.
  have shorter : whole.length ≤ events.length := by
    have lengths := front.length_le
    simp only [List.length_append, List.length_singleton] at lengths
    omega
  have inside : whole <+: events :=
    List.prefix_of_prefix_length_le ((List.prefix_append _ _).trans front) (List.prefix_append _ _)
      shorter
  have moreWhole : ∀ event ∈ whole, event.lastMessage = false :=
    fun event member => more event (inside.subset member)
  exact ⟨whole, next, lost, same, breaksIn_of_cut smallFront moreWhole partCut partShort⟩

/-- A log that is cut off in the body of its second frame. -/
theorem readLog_of_cut_in_body :
    let plain : BuildEvent := {}
    let last : BuildEvent := { lastMessage := true }
    let kept : Bytes := [0x02, 0x0a, 0x00, 0x05, 0x0a]
    kept <+: encodeLog ([plain] ++ [last]) ∧ kept ≠ encodeLog ([plain] ++ [last]) ∧
      ∃ whole next lost, [plain] ++ [last] = whole ++ next :: lost ∧ BreaksIn whole next kept := by
  intro plain last kept
  have small : ∀ event ∈ [plain] ++ [last], event.encode.length < 2 ^ 70 := by decide +kernel
  have cut : kept <+: encodeLog ([plain] ++ [last]) := by decide +kernel
  have short : kept ≠ encodeLog ([plain] ++ [last]) := by decide +kernel
  exact ⟨cut, short, readLog_of_cut [plain] last kept small (by decide) cut short⟩

end GoMetadata
