import GoMetadata.Proofs.BuildEvent.Log
import GoMetadata.Proofs.FileSet.Reachability

/-!
What a graph of file sets knows after a list of events: the roots that completed targets list, and
every set as the first event that names it defines it. A log is observed while it is being read,
which comes to the same as reading it first, down to the error that ends it.
-/

namespace GoMetadata

/-- The set that an event defines, with its name. An empty id is no name, and an event without a
definition defines the empty set. -/
def BuildEvent.namedSet? (event : BuildEvent) : Option (SetId × NamedSet) :=
  match event.id.namedSet with
  | none => none
  | some id => if id = "" then none else some (id, event.definition.getD {})

def firstDefinition? (events : List BuildEvent) (id : SetId) : Option NamedSet :=
  (events.filterMap BuildEvent.namedSet?).lookup id

def Lists (group : String) (events : List BuildEvent) (id : SetId) : Prop :=
  ∃ event ∈ events, event.id.targetCompleted.isSome ∧
    ∃ completion, event.completion = some completion ∧
      ∃ found ∈ completion.outputGroups, found.name = group ∧ id ∈ found.fileSets

/-- The sets that the listed ones lead to by their first definitions. -/
inductive LeadsTo (group : String) (events : List BuildEvent) : SetId → Prop where
  | listed {id : SetId} : Lists group events id → LeadsTo group events id
  | child {id child : SetId} {set : NamedSet} : LeadsTo group events id →
      firstDefinition? events id = some set → child ∈ set.children → LeadsTo group events child

def Produces (group : String) (events : List BuildEvent) (path : String) : Prop :=
  ∃ id set, LeadsTo group events id ∧ firstDefinition? events id = some set ∧
    ∃ file ∈ set.files, file.path = path

namespace FileSetGraph

def newRoots (group : String) (event : BuildEvent) : List SetId :=
  match event.id.targetCompleted, event.completion with
  | some _, some completion => rootsOf group completion
  | _, _ => []

def take (group : String) (graph : FileSetGraph) (event : BuildEvent) : FileSetGraph :=
  match event.namedSet? with
  | none => { graph.count event with roots := graph.roots ++ newRoots group event }
  | some (id, set) =>
    { graph.count event with roots := graph.roots ++ newRoots group event }.define id (some set)

theorem observe_eq (group : String) (graph : FileSetGraph) (event : BuildEvent) :
    observe group graph event =
      match failedTarget? event with
      | some label => .error ⟨.targetFailed label, graph.count event⟩
      | none => .ok (graph.take group event) := by
  unfold observe take BuildEvent.namedSet?
  cases failedTarget? event with
  | some label => rfl
  | none =>
    cases event.id.namedSet with
    | none => rfl
    | some id =>
      by_cases empty : id = ""
      · simp only [if_pos empty]
        rfl
      · simp only [if_neg empty]
        rfl

section Steps

variable {group : String} {graph : FileSetGraph} {event : BuildEvent} {events : List BuildEvent}

theorem observeAll_cons_of_failed {label : String} (failed : failedTarget? event = some label) :
    observeAll group graph (event :: events) =
      .error ⟨.targetFailed label, graph.count event⟩ := by
  rw [observeAll, List.foldlM_cons, observe_eq, failed]
  rfl

theorem observeAll_cons_of_built (built : failedTarget? event = none) :
    observeAll group graph (event :: events) =
      observeAll group (graph.take group event) events := by
  rw [observeAll, List.foldlM_cons, observe_eq, built]
  rfl

theorem observeAll_append {after : FileSetGraph}
    (observed : observeAll group graph events = .ok after) (others : List BuildEvent) :
    observeAll group graph (events ++ others) = observeAll group after others := by
  rw [observeAll] at observed
  rw [observeAll, List.foldlM_append, observed]
  rfl

end Steps

theorem observeAll_eq_ok_iff {group : String} {graph result : FileSetGraph}
    {events : List BuildEvent} :
    observeAll group graph events = .ok result ↔
      (∀ event ∈ events, failedTarget? event = none) ∧
        events.foldl (take group) graph = result := by
  induction events generalizing graph with
  | nil => simp [observeAll, pure, Except.pure]
  | cons event events ih =>
    rw [List.forall_mem_cons, List.foldl_cons]
    cases failed : failedTarget? event with
    | some label =>
      rw [observeAll_cons_of_failed failed]
      exact ⟨nofun, nofun⟩
    | none =>
      rw [observeAll_cons_of_built failed, ih]
      simp only [true_and]

/-- A graph holds the first set of each name and nothing else. -/
structure Records (graph : FileSetGraph) (named : List (SetId × NamedSet)) : Prop where
  files : ∀ id, graph.files.lookup id = (named.lookup id).map fun set => set.files.map File.path
  children : ∀ id, graph.children.lookup id =
    (named.lookup id).map fun set => set.children.filter (· ≠ "")

theorem any_eq_isSome_lookup {β : Type} (entries : List (SetId × β)) (id : SetId) :
    entries.any (·.1 == id) = (entries.lookup id).isSome := by
  rw [Bool.eq_iff_iff, List.any_eq_true, List.lookup_isSome_iff]
  refine exists_congr fun entry => and_congr_right fun _ => ?_
  rw [beq_iff_eq, beq_iff_eq]
  exact eq_comm

theorem lookup_append_singleton {β : Type} (entries : List (SetId × β)) (id key : SetId)
    (value : β) :
    (entries ++ [(id, value)]).lookup key =
      (entries.lookup key).or (if key = id then some value else none) := by
  rw [List.lookup_append, List.lookup_cons]
  by_cases same : key = id
  · simp [same]
  · simp [same, beq_false_of_ne same]

theorem Records.define {graph : FileSetGraph} {named : List (SetId × NamedSet)}
    (records : graph.Records named) (id : SetId) (set : NamedSet) :
    (graph.define id (some set)).Records (named ++ [(id, set)]) := by
  have known : graph.files.any (·.1 == id) = (named.lookup id).isSome := by
    rw [any_eq_isSome_lookup, records.files, Option.isSome_map]
  unfold FileSetGraph.define
  rw [known]
  split
  next defined =>
    -- The graph stays as it is, and so does what is found first under every name.
    have unchanged : ∀ key, (named ++ [(id, set)]).lookup key = named.lookup key := by
      intro key
      rw [lookup_append_singleton]
      by_cases same : key = id
      · rw [same]
        exact Option.or_of_isSome defined
      · rw [if_neg same, Option.or_none]
    constructor
    · intro key
      rw [unchanged, records.files]
    · intro key
      rw [unchanged, records.children]
  next =>
    constructor
    · intro key
      rw [lookup_append_singleton, lookup_append_singleton, records.files, Option.map_or]
      split <;> rfl
    · intro key
      rw [lookup_append_singleton, lookup_append_singleton, records.children, Option.map_or]
      split <;> rfl

theorem mem_rootsOf_iff {group : String} {completion : Completion} {id : SetId} :
    id ∈ rootsOf group completion ↔
      id ≠ "" ∧ ∃ found ∈ completion.outputGroups, found.name = group ∧ id ∈ found.fileSets := by
  simp only [rootsOf, List.mem_flatMap, List.mem_filter, decide_eq_true_eq]
  constructor
  · rintro ⟨found, ⟨member, named⟩, listed, full⟩
    exact ⟨full, found, member, named, listed⟩
  · rintro ⟨full, found, member, named, listed⟩
    exact ⟨found, ⟨member, named⟩, listed, full⟩

/-- What a graph has taken in is what events tell. -/
structure Knows (group : String) (events : List BuildEvent) (graph : FileSetGraph) : Prop where
  sets : graph.Records (events.filterMap BuildEvent.namedSet?)
  roots : ∀ id, id ∈ graph.roots ↔ id ≠ "" ∧ Lists group events id

theorem knows_nil (group : String) : Knows group [] {} where
  sets := ⟨fun _ => rfl, fun _ => rfl⟩
  roots id := by simp [Lists]

theorem roots_define (graph : FileSetGraph) (id : SetId) (definition : Option NamedSet) :
    (graph.define id definition).roots = graph.roots := by
  unfold define
  split <;> rfl

theorem roots_take (group : String) (graph : FileSetGraph) (event : BuildEvent) :
    (graph.take group event).roots = graph.roots ++ newRoots group event := by
  unfold take
  cases event.namedSet? with
  | none => rfl
  | some definition => exact roots_define _ _ _

theorem mem_newRoots_iff {group : String} {event : BuildEvent} {id : SetId} :
    id ∈ newRoots group event ↔ id ≠ "" ∧ Lists group [event] id := by
  unfold newRoots
  cases completed : event.id.targetCompleted with
  | none => simp [Lists, completed]
  | some label =>
    cases completion : event.completion <;> simp [Lists, completed, completion, mem_rootsOf_iff]

theorem lists_append {group : String} {before after : List BuildEvent} {id : SetId} :
    Lists group (before ++ after) id ↔ Lists group before id ∨ Lists group after id := by
  simp only [Lists, List.mem_append, or_and_right, exists_or]

theorem Knows.take {group : String} {events : List BuildEvent} {graph : FileSetGraph}
    (knows : graph.Knows group events) (event : BuildEvent) :
    (graph.take group event).Knows group (events ++ [event]) where
  sets := by
    have sets := knows.sets
    rw [List.filterMap_append, List.filterMap_cons, List.filterMap_nil]
    unfold FileSetGraph.take
    cases event.namedSet? with
    | none =>
      simp only [List.append_nil]
      exact ⟨sets.files, sets.children⟩
    | some definition =>
      apply Records.define
      exact ⟨sets.files, sets.children⟩
  roots id := by
    rw [roots_take, List.mem_append, knows.roots, mem_newRoots_iff, lists_append, ← and_or_left]

theorem Knows.foldl_take {group : String} {before : List BuildEvent} {graph : FileSetGraph}
    (knows : graph.Knows group before) (events : List BuildEvent) :
    (events.foldl (FileSetGraph.take group) graph).Knows group (before ++ events) := by
  induction events generalizing before graph with
  | nil =>
    rw [List.append_nil]
    exact knows
  | cons event events ih =>
    have rest := ih (knows.take event)
    rw [List.append_assoc] at rest
    exact rest

theorem Knows.hasChild_iff {group : String} {events : List BuildEvent} {graph : FileSetGraph}
    (knows : graph.Knows group events) {id child : SetId} :
    graph.HasChild id child ↔
      child ≠ "" ∧ ∃ set, firstDefinition? events id = some set ∧ child ∈ set.children := by
  rw [HasChild, knows.sets.children, ← firstDefinition?]
  cases firstDefinition? events id <;> simp [and_comm]

theorem Knows.hasFile_iff {group : String} {events : List BuildEvent} {graph : FileSetGraph}
    (knows : graph.Knows group events) {id : SetId} {path : String} :
    graph.HasFile id path ↔
      ∃ set, firstDefinition? events id = some set ∧ ∃ file ∈ set.files, file.path = path := by
  rw [HasFile, knows.sets.files, ← firstDefinition?]
  cases firstDefinition? events id <;> simp

/-- The empty id never names a set that is defined. -/
theorem ne_empty_of_firstDefinition? {events : List BuildEvent} {id : SetId} {set : NamedSet}
    (defined : firstDefinition? events id = some set) : id ≠ "" := by
  have present : ((events.filterMap BuildEvent.namedSet?).lookup id).isSome := by
    rw [← firstDefinition?, defined]
    rfl
  obtain ⟨⟨name, _⟩, member, same⟩ := List.lookup_isSome_iff.1 present
  obtain ⟨event, -, named⟩ := List.mem_filterMap.1 member
  rw [beq_iff_eq.1 same]
  intro empty
  unfold BuildEvent.namedSet? at named
  split at named
  · cases named
  · split at named
    · cases named
    next full =>
      cases named
      exact full empty

theorem Knows.leadsTo_of_mem_reachable {group : String} {events : List BuildEvent}
    {graph : FileSetGraph} (knows : graph.Knows group events) :
    ∀ id ∈ graph.reachable, LeadsTo group events id := by
  have closed : graph.Closed {id | LeadsTo group events id} := by
    constructor
    · intro id root
      exact .listed ((knows.roots id).1 root).2
    · intro id reached child hasChild
      obtain ⟨-, set, defined, member⟩ := knows.hasChild_iff.1 hasChild
      exact .child reached defined member
  exact reachable_subset closed

theorem Knows.mem_reachable_of_leadsTo {group : String} {events : List BuildEvent}
    {graph : FileSetGraph} (knows : graph.Knows group events) {id : SetId}
    (leads : LeadsTo group events id) (full : id ≠ "") : id ∈ graph.reachable := by
  induction leads with
  | listed lists => exact graph.closed_reachable.roots _ ((knows.roots _).2 ⟨full, lists⟩)
  | @child id child set _ defined member ih =>
    -- A set that is defined has a name, so the induction hypothesis applies to it.
    have parent := ih (ne_empty_of_firstDefinition? defined)
    exact graph.closed_reachable.children id parent child
      (knows.hasChild_iff.2 ⟨full, set, defined, member⟩)

theorem Knows.mem_flatten_iff {group : String} {events : List BuildEvent} {graph : FileSetGraph}
    (knows : graph.Knows group events) {path : String} :
    path ∈ graph.flatten ↔ Produces group events path := by
  rw [FileSetGraph.mem_flatten_iff]
  constructor
  · rintro ⟨id, reached, hasFile⟩
    obtain ⟨set, defined, file⟩ := knows.hasFile_iff.1 hasFile
    exact ⟨id, set, knows.leadsTo_of_mem_reachable id reached, defined, file⟩
  · rintro ⟨id, set, leads, defined, file⟩
    have reached := knows.mem_reachable_of_leadsTo leads (ne_empty_of_firstDefinition? defined)
    exact ⟨id, reached, knows.hasFile_iff.2 ⟨set, defined, file⟩⟩

/-- To observe a log while it is being read is to read as many events as there are and to observe
them, unless one of these reports a failure, before the fault that the log breaks with. -/
theorem observeLogFrom_eq (group : String) (graph : FileSetGraph) (offset : Nat) (bytes : Bytes) :
    observeLogFrom group graph offset bytes =
      match observeAll group graph (readLogFrom offset bytes).events with
      | .error halted => .error halted
      | .ok graph =>
        match (readLogFrom offset bytes).broken with
        | none => .ok graph
        | some (fault, place) => .error ⟨fault.error place, graph⟩ := by
  fun_induction observeLogFrom group graph offset bytes
  case case1 graph offset bytes fault failed =>
    rw [readLogFrom_of_error failed]
    rfl
  case case2 graph offset bytes event rest read halted stopped =>
    -- The failure comes before whatever follows in the log.
    have first : ∀ events, observeAll group graph (event :: events) = .error halted := by
      intro events
      rw [observeAll, List.foldlM_cons, stopped]
      rfl
    rw [readLogFrom_of_ok read]
    by_cases last : event.lastMessage = true
    · simp only [if_pos last, first]
    · simp only [if_neg last, first]
  case case3 graph offset bytes event rest read next taken last =>
    rw [readLogFrom_of_ok read, if_pos last]
    simp only [observeAll, List.foldlM_cons, taken, List.foldlM_nil]
    rfl
  case case4 graph offset bytes event rest read next taken more ih =>
    rw [readLogFrom_of_ok read, if_neg more, ih]
    simp only [observeAll, List.foldlM_cons, taken]
    rfl

theorem observeLogFrom_eq_ok_iff {group : String} {graph result : FileSetGraph} {offset : Nat}
    {bytes : Bytes} :
    observeLogFrom group graph offset bytes = .ok result ↔
      ∃ events, Tells bytes events ∧ observeAll group graph events = .ok result := by
  rw [observeLogFrom_eq]
  constructor
  · intro observed
    split at observed
    · cases observed
    next taken =>
      split at observed
      next whole =>
        cases observed
        exact ⟨_, readLogFrom_eq_iff_tells.1 (congrArg (LogContents.mk _) whole), taken⟩
      · cases observed
  · rintro ⟨events, tells, taken⟩
    rw [readLogFrom_eq_iff_tells.2 tells, taken]

def after (group : String) (events : List BuildEvent) : FileSetGraph :=
  events.foldl (take group) {}

theorem observeLog_eq_ok_iff {group : String} {bytes : Bytes} {graph : FileSetGraph} :
    observeLog group {} bytes = .ok graph ↔
      ∃ events, Tells bytes events ∧ (∀ event ∈ events, failedTarget? event = none) ∧
        after group events = graph := by
  rw [observeLog, observeLogFrom_eq_ok_iff]
  exact exists_congr fun events => and_congr_right fun _ => observeAll_eq_ok_iff

/-- The files found after events are those that the events produce. -/
theorem mem_flatten_after_iff {group : String} {events : List BuildEvent} {path : String} :
    path ∈ (after group events).flatten ↔ Produces group events path :=
  ((knows_nil group).foldl_take events).mem_flatten_iff

end FileSetGraph

end GoMetadata
