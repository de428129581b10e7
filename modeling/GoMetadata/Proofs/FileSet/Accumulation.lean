import GoMetadata.Proofs.FileSet.Observation

/-!
What a graph holds after events have been taken in, told by the events alone. A target that was not
built ends the observation; its own event is still counted and leaves nothing else behind.
-/

namespace GoMetadata

/-- An event reports a target that was not built: its completion is missing or is no success. -/
def BuildEvent.reportsFailure (event : BuildEvent) : Bool :=
  event.id.targetCompleted.isSome && !event.completion.any (·.success)

def eventsBuilt (events : List BuildEvent) : List BuildEvent :=
  events.takeWhile fun event => !event.reportsFailure

def failure? (events : List BuildEvent) : Option BuildEvent :=
  events.find? BuildEvent.reportsFailure

/-- The events that are looked at: all of them, or those up to the first failure and this one. -/
def eventsSeen (events : List BuildEvent) : List BuildEvent :=
  eventsBuilt events ++ (failure? events).toList

/-- The names of the sets that events name, in the order in which they are first named. -/
def namesTold (events : List BuildEvent) : List SetId :=
  ((events.filterMap BuildEvent.namedSet?).map Prod.fst).eraseDups

namespace FileSetGraph

/-- The sets that have files recorded are those that have children recorded. -/
def InStep (graph : FileSetGraph) : Prop :=
  ∀ id, id ∈ graph.files.map Prod.fst ↔ id ∈ graph.children.map Prod.fst

/-- What events add to one of the maps of a graph: some part of the first definition of every name
that the graph has not recorded. -/
def newEntries (graph : FileSetGraph) (part : NamedSet → List String) (events : List BuildEvent) :
    List (SetId × List String) :=
  ((namesTold events).filter (· ∉ graph.files.map Prod.fst)).map fun id =>
    (id, part ((firstDefinition? events id).getD {}))

/-- How a graph has grown by some events, of which those in `built` report no failure. -/
structure Grows (group : String) (before : FileSetGraph) (seen built : List BuildEvent)
    (after : FileSetGraph) : Prop where
  eventCount : after.eventCount = before.eventCount + seen.length
  completedCount : after.completedCount =
    before.completedCount + seen.countP (·.id.targetCompleted.isSome)
  roots : after.roots = before.roots ++ built.flatMap (newRoots group)
  files : after.files =
    before.files ++ before.newEntries (fun set => set.files.map File.path) built
  children : after.children =
    before.children ++ before.newEntries (fun set => set.children.filter (· ≠ "")) built

theorem failedTarget?_eq (event : BuildEvent) :
    failedTarget? event = if event.reportsFailure then event.id.targetCompleted else none := by
  unfold failedTarget? BuildEvent.reportsFailure
  cases event.id.targetCompleted with
  | none => rfl
  | some label =>
    cases event.completion with
    | none => rfl
    | some completion => cases success : completion.success <;> simp [success]

theorem failedTarget?_eq_none {event : BuildEvent} (built : event.reportsFailure = false) :
    failedTarget? event = none := by
  rw [failedTarget?_eq, built]
  rfl

theorem exists_failedTarget {event : BuildEvent} (failed : event.reportsFailure = true) :
    ∃ label, event.id.targetCompleted = some label ∧ failedTarget? event = some label := by
  have completed : event.id.targetCompleted.isSome = true := by
    rw [BuildEvent.reportsFailure, Bool.and_eq_true] at failed
    exact failed.1
  obtain ⟨label, same⟩ := Option.isSome_iff_exists.1 completed
  refine ⟨label, same, ?_⟩
  rw [failedTarget?_eq, if_pos failed, same]

section Names

variable {events : List BuildEvent} {event : BuildEvent} {id : SetId} {set : NamedSet}

theorem mem_namesTold_iff : id ∈ namesTold events ↔ (firstDefinition? events id).isSome := by
  rw [namesTold, List.mem_eraseDups, firstDefinition?, List.lookup_isSome_iff, List.mem_map]
  refine exists_congr fun entry => and_congr_right fun _ => ?_
  rw [beq_iff_eq]
  exact eq_comm

theorem namesTold_append (named : event.namedSet? = some (id, set)) :
    namesTold (events ++ [event]) =
      namesTold events ++ if id ∈ namesTold events then [] else [id] := by
  rw [namesTold, List.filterMap_append, List.filterMap_cons_some named, List.filterMap_nil,
    List.map_append, List.map_singleton, Text.eraseDups_concat, namesTold]
  simp only [List.mem_eraseDups]

theorem firstDefinition?_append (named : event.namedSet? = some (id, set)) (key : SetId) :
    firstDefinition? (events ++ [event]) key =
      (firstDefinition? events key).or (if key = id then some set else none) := by
  unfold firstDefinition?
  rw [List.filterMap_append, List.filterMap_cons_some named, List.filterMap_nil]
  exact lookup_append_singleton _ _ _ _

variable (graph : FileSetGraph) (part : NamedSet → List String)

theorem newEntries_append_of_none (unnamed : event.namedSet? = none) :
    graph.newEntries part (events ++ [event]) = graph.newEntries part events := by
  have same : (events ++ [event]).filterMap BuildEvent.namedSet? =
      events.filterMap BuildEvent.namedSet? := by
    rw [List.filterMap_append, List.filterMap_cons_none unnamed, List.filterMap_nil,
      List.append_nil]
  simp only [newEntries, namesTold, firstDefinition?, same]

/-- Another event adds its set under a name that is neither recorded nor told before. -/
theorem newEntries_append (named : event.namedSet? = some (id, set)) :
    graph.newEntries part (events ++ [event]) = graph.newEntries part events ++
      if id ∈ graph.files.map Prod.fst ∨ id ∈ namesTold events then [] else [(id, part set)] := by
  have kept : ((namesTold events).filter (· ∉ graph.files.map Prod.fst)).map
      (fun key => (key, part ((firstDefinition? (events ++ [event]) key).getD {}))) =
        graph.newEntries part events := by
    apply List.map_congr_left
    intro key member
    have told : key ∈ namesTold events := (List.mem_filter.1 member).1
    rw [firstDefinition?_append named, Option.or_of_isSome (mem_namesTold_iff.1 told)]
  rw [newEntries, namesTold_append named, List.filter_append, List.map_append, kept]
  congr 1
  by_cases told : id ∈ namesTold events
  · simp [told]
  · have undefined : firstDefinition? events id = none := by
      rw [← Option.not_isSome_iff_eq_none, ← mem_namesTold_iff]
      exact told
    have first : firstDefinition? (events ++ [event]) id = some set := by
      rw [firstDefinition?_append named, undefined, if_pos rfl, Option.none_or]
    by_cases recorded : id ∈ graph.files.map Prod.fst
    · simp [told, recorded]
    · simp [told, recorded, first]

theorem mem_map_fst_newEntries_iff :
    id ∈ (graph.newEntries part events).map Prod.fst ↔
      id ∈ namesTold events ∧ id ∉ graph.files.map Prod.fst := by
  have names : (graph.newEntries part events).map Prod.fst =
      (namesTold events).filter (· ∉ graph.files.map Prod.fst) := by
    rw [newEntries, List.map_map]
    exact List.map_id' _
  rw [names, List.mem_filter, decide_eq_true_eq]

end Names

section Growth

variable {group : String} {before after : FileSetGraph} {seen built : List BuildEvent}

theorem Grows.mem_files_iff (grows : before.Grows group seen built after) {id : SetId} :
    id ∈ after.files.map Prod.fst ↔ id ∈ before.files.map Prod.fst ∨ id ∈ namesTold built := by
  rw [grows.files, List.map_append, List.mem_append, mem_map_fst_newEntries_iff]
  by_cases recorded : id ∈ before.files.map Prod.fst <;> simp [recorded]

theorem Grows.inStep (grows : before.Grows group seen built after) (inStep : before.InStep) :
    after.InStep := by
  intro id
  rw [grows.files, grows.children, List.map_append, List.map_append, List.mem_append,
    List.mem_append, mem_map_fst_newEntries_iff, mem_map_fst_newEntries_iff, inStep id]

theorem Grows.refl (group : String) (graph : FileSetGraph) : graph.Grows group [] [] graph where
  eventCount := rfl
  completedCount := rfl
  roots := (List.append_nil _).symm
  files := (List.append_nil _).symm
  children := (List.append_nil _).symm

theorem Grows.count (grows : before.Grows group seen built after) (event : BuildEvent) :
    before.Grows group (seen ++ [event]) built (after.count event) where
  eventCount := by simp [FileSetGraph.count, grows.eventCount, Nat.add_assoc]
  completedCount := by
    simp [FileSetGraph.count, grows.completedCount, List.countP_append, List.countP_singleton,
      Nat.add_assoc]
  roots := grows.roots
  files := grows.files
  children := grows.children

theorem Grows.take (grows : before.Grows group seen built after) (event : BuildEvent) :
    before.Grows group (seen ++ [event]) (built ++ [event]) (after.take group event) := by
  have counted := grows.count event
  have roots : after.roots ++ newRoots group event =
      before.roots ++ (built ++ [event]).flatMap (newRoots group) := by
    rw [grows.roots, List.flatMap_append, List.flatMap_singleton, List.append_assoc]
  unfold FileSetGraph.take
  cases named : event.namedSet? with
  | none =>
    refine ⟨counted.eventCount, counted.completedCount, roots, ?_, ?_⟩
    · rw [newEntries_append_of_none before _ named]
      exact grows.files
    · rw [newEntries_append_of_none before _ named]
      exact grows.children
  | some definition =>
    obtain ⟨id, set⟩ := definition
    have recorded : (after.count event).files.any (·.1 == id) = true ↔
        id ∈ before.files.map Prod.fst ∨ id ∈ namesTold built := by
      rw [← counted.mem_files_iff, List.any_eq_true, List.mem_map]
      simp only [beq_iff_eq]
    simp only [FileSetGraph.define]
    by_cases known : id ∈ before.files.map Prod.fst ∨ id ∈ namesTold built
    · -- The first definition stands, so only the counts and the roots move on.
      rw [if_pos (recorded.2 known)]
      refine ⟨counted.eventCount, counted.completedCount, roots, ?_, ?_⟩
      · rw [newEntries_append before _ named, if_pos known, List.append_nil]
        exact grows.files
      · rw [newEntries_append before _ named, if_pos known, List.append_nil]
        exact grows.children
    · rw [if_neg (mt recorded.1 known)]
      refine ⟨counted.eventCount, counted.completedCount, roots, ?_, ?_⟩
      · rw [newEntries_append before _ named, if_neg known, ← List.append_assoc, ← grows.files]
        rfl
      · rw [newEntries_append before _ named, if_neg known, ← List.append_assoc, ← grows.children]
        rfl

/-- How events go on from a graph that has grown: all of them are taken in, or those before the
first failure, of which the event is counted. -/
theorem Grows.observeAll (grows : before.Grows group built built after)
    (events : List BuildEvent) :
    ∃ last, before.Grows group (built ++ eventsSeen events) (built ++ eventsBuilt events) last ∧
      ((failure? events = none ∧ FileSetGraph.observeAll group after events = .ok last) ∨
        ∃ event label, failure? events = some event ∧ event.id.targetCompleted = some label ∧
          FileSetGraph.observeAll group after events = .error ⟨.targetFailed label, last⟩) := by
  induction events generalizing built after with
  | nil =>
    refine ⟨after, ?_, .inl ⟨rfl, rfl⟩⟩
    simpa [eventsSeen, eventsBuilt, failure?] using grows
  | cons event events ih =>
    cases failed : event.reportsFailure with
    | true =>
      obtain ⟨label, completed, reported⟩ := exists_failedTarget failed
      refine ⟨after.count event, ?_, .inr ⟨event, label, ?_, completed, ?_⟩⟩
      · simpa [eventsSeen, eventsBuilt, failure?, failed] using grows.count event
      · simp [failure?, failed]
      · exact observeAll_cons_of_failed reported
    | false =>
      obtain ⟨last, growth, outcome⟩ := ih (grows.take event)
      refine ⟨last, ?_, ?_⟩
      · simpa [eventsSeen, eventsBuilt, failure?, failed] using growth
      · have sought : failure? (event :: events) = failure? events := by simp [failure?, failed]
        rw [observeAll_cons_of_built (failedTarget?_eq_none failed), sought]
        exact outcome

end Growth

/-- The graph after events, and how their observation ends. Of the event of a failure only the
counts are kept. -/
theorem observeAll_grows (group : String) (before : FileSetGraph) (events : List BuildEvent)
    (inStep : before.InStep) :
    ∃ after, before.Grows group (eventsSeen events) (eventsBuilt events) after ∧ after.InStep ∧
      ((failure? events = none ∧ observeAll group before events = .ok after) ∨
        ∃ event label, failure? events = some event ∧ event.id.targetCompleted = some label ∧
          observeAll group before events = .error ⟨.targetFailed label, after⟩) := by
  obtain ⟨after, grows, outcome⟩ := (Grows.refl group before).observeAll events
  rw [List.nil_append, List.nil_append] at grows
  exact ⟨after, grows, grows.inStep inStep, outcome⟩

/-- A set whose first definition is missing, an event that is both a completion and a definition,
and a failure that comes with a definition. -/
theorem observeAll_grows_until_failure :
    let before : FileSetGraph := ⟨[("0", ["x"])], [("0", [])], ["0"], 5, 2⟩
    let events : List BuildEvent :=
      [⟨⟨none, some "1"⟩, false, none, none⟩,
        ⟨⟨some "//a", some "2"⟩, false, some ⟨[{ name := "b" }], ["1", ""]⟩,
          some ⟨true, [⟨"data", ["2", ""], false⟩, ⟨"docs", ["9"], false⟩,
            ⟨"data", ["1"], false⟩]⟩⟩,
        ⟨⟨none, some "1"⟩, false, some ⟨[{ name := "late" }], []⟩, none⟩,
        ⟨⟨some "//b", some "3"⟩, true, some ⟨[{ name := "c" }], []⟩,
          some ⟨false, [⟨"data", ["3"], false⟩]⟩⟩,
        ⟨⟨none, some "4"⟩, true, none, none⟩]
    before.InStep ∧
    observeAll "data" before events = .error ⟨.targetFailed "//b",
      ⟨[("0", ["x"]), ("1", []), ("2", ["b"])], [("0", []), ("1", []), ("2", ["1"])],
        ["0", "2", "1"], 9, 4⟩⟩ ∧
    ∃ after, before.Grows "data" (eventsSeen events) (eventsBuilt events) after ∧ after.InStep ∧
      ((failure? events = none ∧ observeAll "data" before events = .ok after) ∨
        ∃ event label, failure? events = some event ∧ event.id.targetCompleted = some label ∧
          observeAll "data" before events = .error ⟨.targetFailed label, after⟩) := by
  intro before events
  have inStep : before.InStep := fun _ => Iff.rfl
  have observed : observeAll "data" before events = .error ⟨.targetFailed "//b",
      ⟨[("0", ["x"]), ("1", []), ("2", ["b"])], [("0", []), ("1", []), ("2", ["1"])],
        ["0", "2", "1"], 9, 4⟩⟩ := by decide +kernel
  exact ⟨inStep, observed, observeAll_grows "data" before events inStep⟩

end FileSetGraph

end GoMetadata
