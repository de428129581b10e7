import GoMetadata.Proofs.BuildEvent.Frames
import GoMetadata.Proofs.FileSet.Accumulation
import Mathlib.Data.List.TakeWhile

/-!
Logs that are observed while they are being read. Events are taken in as far as reading yields them,
and a target that was not built ends the observation at its own event: whatever the bytes behind its
frame are, they are not reached. Only where no target failed does the error of the reading count,
after all events. So the files of a log are those of the events that it tells.
-/

namespace GoMetadata

theorem exists_append_of_failure {events : List BuildEvent} {event : BuildEvent}
    (failed : failure? events = some event) :
    event.reportsFailure = true ∧ ∃ behind, events = eventsBuilt events ++ event :: behind := by
  obtain ⟨reports, before, behind, rfl, others⟩ := List.find?_eq_some_iff_append.1 failed
  have built : eventsBuilt (before ++ event :: behind) = before := by
    rw [eventsBuilt, List.takeWhile_append_of_pos others]
    simp [reports]
  exact ⟨reports, behind, by rw [built]⟩

theorem eventsSeen_of_failure {events : List BuildEvent} {event : BuildEvent}
    (failed : failure? events = some event) :
    eventsSeen events = eventsBuilt events ++ [event] := by
  rw [eventsSeen, failed]
  rfl

/-- Frames at the head of a log are read, unless one before the last of them ends the log. -/
theorem exists_events_of_frames {frames : List Bytes} {before : List BuildEvent}
    {event : BuildEvent} (framed : List.Forall₂ IsFrame frames (before ++ [event]))
    (more : ∀ other ∈ before, other.lastMessage = false) (offset : Nat) (rest : Bytes) :
    ∃ later, (readLogFrom offset (frames.flatten ++ rest)).events = before ++ event :: later := by
  have front := List.forall₂_take_append frames before [event] framed
  have back := List.forall₂_drop_append frames before [event] framed
  obtain ⟨frame, _, head, nothing, single⟩ := List.forall₂_cons_right_iff.1 back
  cases nothing
  have split : frames.flatten ++ rest =
      (frames.take before.length).flatten ++ (frame ++ rest) := by
    calc
      _ = (frames.take before.length ++ frames.drop before.length).flatten ++ rest := by
        rw [List.take_append_drop]
      _ = _ := by
        rw [single, List.flatten_append, List.flatten_singleton, List.append_assoc]
  rw [split, readLogFrom_frames_append front more, readLogFrom_of_ok (head.readEvent_append rest)]
  split
  · exact ⟨[], rfl⟩
  · exact ⟨_, rfl⟩

namespace FileSetGraph

variable {group : String} {graph : FileSetGraph}

theorem exists_observeAll_of_built {events : List BuildEvent}
    (built : ∀ event ∈ events, event.reportsFailure = false) :
    ∃ after, observeAll group graph events = .ok after :=
  ⟨_, observeAll_eq_ok_iff.2 ⟨fun event member => failedTarget?_eq_none (built event member), rfl⟩⟩

theorem observeLog_of_error {bytes : Bytes} {halted : Halted}
    (stopped : observeAll group graph (readLog bytes).events = .error halted) :
    observeLog group graph bytes = .error halted := by
  rw [observeLog, observeLogFrom_eq]
  rw [readLog] at stopped
  rw [stopped]

theorem observeLog_of_ok {bytes : Bytes} {after : FileSetGraph}
    (taken : observeAll group graph (readLog bytes).events = .ok after) :
    observeLog group graph bytes =
      match (readLog bytes).error? with
      | none => .ok after
      | some error => .error ⟨error, after⟩ := by
  rw [observeLog, observeLogFrom_eq]
  rw [readLog] at taken
  rw [taken, readLog, LogContents.error?]
  cases (readLogFrom 0 bytes).broken <;> rfl

theorem exists_observeAll_eventsBuilt (group : String) (graph : FileSetGraph)
    (events : List BuildEvent) :
    ∃ before, observeAll group graph (eventsBuilt events) = .ok before := by
  refine exists_observeAll_of_built fun event member => ?_
  simpa using List.mem_takeWhile_imp member

/-- A target that was not built ends the observation of every log that begins with the frames up to
that of its event. -/
theorem observeLog_of_frames {frames : List Bytes} {before : List BuildEvent} {event : BuildEvent}
    {label : String} {reached : FileSetGraph}
    (framed : List.Forall₂ IsFrame frames (before ++ [event]))
    (more : ∀ other ∈ before, other.lastMessage = false)
    (taken : observeAll group graph before = .ok reached)
    (reported : failedTarget? event = some label) {bytes : Bytes}
    (begins : frames.flatten <+: bytes) :
    observeLog group graph bytes = .error ⟨.targetFailed label, reached.count event⟩ := by
  obtain ⟨tail, rfl⟩ := begins
  obtain ⟨later, read⟩ := exists_events_of_frames framed more 0 tail
  refine observeLog_of_error ?_
  rw [readLog, read, observeAll_append taken]
  exact observeAll_cons_of_failed reported

/-- To observe a log while reading it is to read it first, to its end or its error, and to observe
the events in order. The first failure among these decides, and what follows its frame does not
matter; if there is none, the error that the reading ends with, if any, comes after all events. -/
theorem observeLog_follows_readLog (group : String) (graph : FileSetGraph) (bytes : Bytes) :
    let contents := readLog bytes
    (∀ event, failure? contents.events = some event →
      ∃ label before after frames, event.id.targetCompleted = some label ∧
        observeAll group graph (eventsBuilt contents.events) = .ok before ∧
        observe group before event = .error ⟨.targetFailed label, after⟩ ∧
        observeLog group graph bytes = .error ⟨.targetFailed label, after⟩ ∧
        frames.flatten <+: bytes ∧ List.Forall₂ IsFrame frames (eventsSeen contents.events) ∧
        ∀ other, frames.flatten <+: other →
          observeLog group graph other = .error ⟨.targetFailed label, after⟩) ∧
    (failure? contents.events = none →
      ∃ after, observeAll group graph contents.events = .ok after ∧
        (∀ error, contents.error? = some error →
          observeLog group graph bytes = .error ⟨error, after⟩) ∧
        (contents.error? = none → observeLog group graph bytes = .ok after)) := by
  intro contents
  constructor
  · intro event failed
    obtain ⟨reports, behind, split⟩ := exists_append_of_failure failed
    obtain ⟨before, taken⟩ := exists_observeAll_eventsBuilt group graph contents.events
    obtain ⟨label, completed, reported⟩ := exists_failedTarget reports
    have stopped : observe group before event =
        .error ⟨.targetFailed label, before.count event⟩ := by
      rw [observe_eq, reported]
    obtain ⟨_, _, divides⟩ : ∃ frames rest, Divides bytes contents 0 frames rest :=
      exists_divides 0 bytes
    have more : ∀ other ∈ eventsBuilt contents.events, other.lastMessage = false := by
      have early := divides.more
      rw [split, List.dropLast_append_cons] at early
      exact fun other member => early other (List.mem_append_left _ member)
    obtain ⟨frames, inside, framed⟩ := divides.exists_frames (split.trans (List.append_cons ..))
    have every : ∀ other, frames.flatten <+: other →
        observeLog group graph other = .error ⟨.targetFailed label, before.count event⟩ :=
      fun _ => observeLog_of_frames framed more taken reported
    refine ⟨label, before, _, frames, completed, taken, stopped, every bytes inside, inside, ?_,
      every⟩
    rw [eventsSeen_of_failure failed]
    exact framed
  · intro none
    have built : ∀ event ∈ contents.events, event.reportsFailure = false := by
      intro event member
      simpa using List.find?_eq_none.1 none event member
    obtain ⟨after, taken⟩ : ∃ after, observeAll group graph _ = .ok after :=
      exists_observeAll_of_built built
    have outcome := observeLog_of_ok taken
    refine ⟨after, taken, fun error broken => ?_, fun unbroken => ?_⟩
    · rw [outcome, broken]
    · rw [outcome, unbroken]

end FileSetGraph

/-! The files of a log that is observed in this way -/

section Resolution

variable {group : String} {bytes : Bytes} {files : List String}

/-- A log resolves to what its events resolve to. The error that its reading ends with counts only
where the events resolve to files. -/
theorem resolveOutputFilesOfLog_eq (group : String) (bytes : Bytes) :
    resolveOutputFilesOfLog group bytes =
      match resolveOutputFiles group (readLog bytes).events, (readLog bytes).error? with
      | .error error, _ => .error error
      | .ok _, some error => .error error
      | .ok files, none => .ok files := by
  unfold resolveOutputFilesOfLog resolveOutputFiles
  cases observed : FileSetGraph.observeAll group {} (readLog bytes).events with
  | error halted => rw [FileSetGraph.observeLog_of_error observed]
  | ok graph =>
    rw [FileSetGraph.observeLog_of_ok observed]
    cases (readLog bytes).error? <;> rfl

theorem resolveOutputFilesOfLog_of_tells {events : List BuildEvent} (tells : Tells bytes events) :
    resolveOutputFilesOfLog group bytes = resolveOutputFiles group events := by
  rw [resolveOutputFilesOfLog_eq, readLog, readLogFrom_eq_iff_tells.2 tells]
  cases resolveOutputFiles group events <;> rfl

theorem resolveOutputFilesOfLog_eq_ok_iff :
    resolveOutputFilesOfLog group bytes = .ok files ↔
      ∃ events, Tells bytes events ∧ resolveOutputFiles group events = .ok files := by
  constructor
  · intro resolved
    have split := resolved
    unfold resolveOutputFilesOfLog at split
    cases observed : FileSetGraph.observeLog group {} bytes with
    | error halted =>
      rw [observed] at split
      cases split
    | ok graph =>
      obtain ⟨events, tells, -⟩ := FileSetGraph.observeLog_eq_ok_iff.1 observed
      exact ⟨events, tells, resolveOutputFilesOfLog_of_tells tells ▸ resolved⟩
  · rintro ⟨events, tells, resolved⟩
    rw [resolveOutputFilesOfLog_of_tells tells, resolved]

theorem resolveOutputFilesOfLog_append (resolved : resolveOutputFilesOfLog group bytes = .ok files)
    (rest : Bytes) : resolveOutputFilesOfLog group (bytes ++ rest) = .ok files := by
  obtain ⟨events, tells, found⟩ := resolveOutputFilesOfLog_eq_ok_iff.1 resolved
  exact resolveOutputFilesOfLog_eq_ok_iff.2 ⟨events, tells.append rest, found⟩

theorem resolveOutputFilesOfLog_encodeLog {events : List BuildEvent} {last : BuildEvent}
    (small : ∀ event ∈ events ++ [last], event.encode.length < 2 ^ 70)
    (more : ∀ event ∈ events, event.lastMessage = false) (isLast : last.lastMessage = true)
    (rest : Bytes) :
    resolveOutputFilesOfLog group (encodeLog (events ++ [last]) ++ rest) =
      resolveOutputFiles group (events ++ [last]) :=
  resolveOutputFilesOfLog_of_tells (tells_encodeLog events last small more isLast rest)

end Resolution

end GoMetadata
