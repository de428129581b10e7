import GoMetadata.Proofs.FileSet.Observation

/-!
The files that a list of events resolves to. Where events do not contradict each other about what
is in a set, the files depend on which events there are, not on their order nor on how often each
is told, and with more events come more files.
-/

namespace GoMetadata

/-- Two sets of which a graph would record the same, apart from the order. -/
structure NamedSet.Agrees (set other : NamedSet) : Prop where
  paths : ∀ path, path ∈ set.files.map File.path ↔ path ∈ other.files.map File.path
  children : ∀ child, child ≠ "" → (child ∈ set.children ↔ child ∈ other.children)

def Consistent (events : List BuildEvent) : Prop :=
  ∀ event ∈ events, ∀ other ∈ events, ∀ id set otherSet,
    event.namedSet? = some (id, set) → other.namedSet? = some (id, otherSet) → set.Agrees otherSet

theorem Consistent.mono {events others : List BuildEvent} (consistent : Consistent others)
    (inside : ∀ event ∈ events, event ∈ others) : Consistent events :=
  fun event member other otherMember =>
    consistent event (inside event member) other (inside other otherMember)

/-- Where every name is defined by one event only, however often told, there is no contradiction. -/
theorem consistent_of_unique {events : List BuildEvent}
    (unique : ∀ event ∈ events, ∀ other ∈ events, event.namedSet?.isSome →
      event.namedSet?.map Prod.fst = other.namedSet?.map Prod.fst → event = other) :
    Consistent events := by
  intro event member other otherMember id set otherSet named otherNamed
  have same : event = other := by
    apply unique event member other otherMember
    · simp [named]
    · simp [named, otherNamed]
  have sets : set = otherSet := by
    rw [← same, named] at otherNamed
    cases otherNamed
    rfl
  rw [sets]
  exact ⟨fun _ => Iff.rfl, fun _ _ => Iff.rfl⟩

theorem exists_event_of_firstDefinition? {events : List BuildEvent} {id : SetId} {set : NamedSet}
    (defined : firstDefinition? events id = some set) :
    ∃ event ∈ events, event.namedSet? = some (id, set) := by
  obtain ⟨before, after, split, -⟩ := List.lookup_eq_some_iff.1 defined
  have member : (id, set) ∈ events.filterMap BuildEvent.namedSet? := by simp [split]
  exact List.mem_filterMap.1 member

theorem exists_firstDefinition? {events : List BuildEvent} {event : BuildEvent} {id : SetId}
    {set : NamedSet} (member : event ∈ events) (named : event.namedSet? = some (id, set)) :
    ∃ first, firstDefinition? events id = some first := by
  have entry : (id, set) ∈ events.filterMap BuildEvent.namedSet? :=
    List.mem_filterMap.2 ⟨event, member, named⟩
  have found := List.lookup_isSome_iff.2 ⟨(id, set), entry, beq_self_eq_true id⟩
  exact Option.isSome_iff_exists.1 found

section Monotone

variable {group : String} {events others : List BuildEvent}
variable (inside : ∀ event ∈ events, event ∈ others) (consistent : Consistent others)

include inside

theorem Lists.mono {id : SetId} (lists : Lists group events id) : Lists group others id := by
  obtain ⟨event, member, listed⟩ := lists
  exact ⟨event, inside event member, listed⟩

include consistent

theorem firstDefinition?_mono {id : SetId} {set : NamedSet}
    (defined : firstDefinition? events id = some set) :
    ∃ otherSet, firstDefinition? others id = some otherSet ∧ set.Agrees otherSet := by
  obtain ⟨event, member, named⟩ := exists_event_of_firstDefinition? defined
  obtain ⟨otherSet, first⟩ := exists_firstDefinition? (inside event member) named
  obtain ⟨other, otherMember, otherNamed⟩ := exists_event_of_firstDefinition? first
  have agrees := consistent event (inside event member) other otherMember id set otherSet named
    otherNamed
  exact ⟨otherSet, first, agrees⟩

theorem LeadsTo.mono {id : SetId} (leads : LeadsTo group events id) (full : id ≠ "") :
    LeadsTo group others id := by
  induction leads with
  | listed lists => exact .listed (lists.mono inside)
  | @child id child set _ defined member ih =>
    -- The parent is defined, hence has a name, and its definition among the others has this child.
    have parent := ih (FileSetGraph.ne_empty_of_firstDefinition? defined)
    obtain ⟨otherSet, first, agrees⟩ := firstDefinition?_mono inside consistent defined
    exact .child parent first ((agrees.children child full).1 member)

theorem Produces.mono {path : String} (produces : Produces group events path) :
    Produces group others path := by
  obtain ⟨id, set, leads, defined, file⟩ := produces
  have otherLeads :=
    leads.mono inside consistent (FileSetGraph.ne_empty_of_firstDefinition? defined)
  obtain ⟨otherSet, first, agrees⟩ := firstDefinition?_mono inside consistent defined
  have otherFile := (agrees.paths path).1 (List.mem_map.2 file)
  exact ⟨id, otherSet, otherLeads, first, List.mem_map.1 otherFile⟩

end Monotone

namespace FileSetGraph

theorem observeAll_of_failed {group label : String} {graph : FileSetGraph}
    {events : List BuildEvent} (failed : events.findSome? failedTarget? = some label) :
    ∃ stopped, observeAll group graph events = .error ⟨.targetFailed label, stopped⟩ := by
  induction events generalizing graph with
  | nil => cases failed
  | cons event events ih =>
    rw [List.findSome?_cons] at failed
    cases head : failedTarget? event with
    | some found =>
      rw [head] at failed
      cases failed
      exact ⟨graph.count event, observeAll_cons_of_failed head⟩
    | none =>
      rw [head] at failed
      rw [observeAll_cons_of_built head]
      exact ih failed

end FileSetGraph

/-- What a list of events resolves to is decided by its first failure or, if there is none, by the
graph after all of it. -/
theorem resolveOutputFiles_eq (group : String) (events : List BuildEvent) :
    resolveOutputFiles group events =
      match events.findSome? FileSetGraph.failedTarget? with
      | some label => .error (.targetFailed label)
      | none => .ok (FileSetGraph.after group events).flatten := by
  unfold resolveOutputFiles
  cases failed : events.findSome? FileSetGraph.failedTarget? with
  | some label =>
    obtain ⟨stopped, observed⟩ := FileSetGraph.observeAll_of_failed failed
    rw [observed]
  | none =>
    have observed : FileSetGraph.observeAll group {} events =
        .ok (FileSetGraph.after group events) :=
      FileSetGraph.observeAll_eq_ok_iff.2 ⟨List.findSome?_eq_none_iff.1 failed, rfl⟩
    rw [observed]

theorem resolveOutputFiles_eq_ok_iff {group : String} {events : List BuildEvent}
    {files : List String} :
    resolveOutputFiles group events = .ok files ↔
      (∀ event ∈ events, FileSetGraph.failedTarget? event = none) ∧
        Text.Ascending files ∧ ∀ path, path ∈ files ↔ Produces group events path := by
  have ascending : Text.Ascending (FileSetGraph.after group events).flatten :=
    Text.ascending_sortDistinct _
  rw [resolveOutputFiles_eq, ← List.findSome?_eq_none_iff]
  cases events.findSome? FileSetGraph.failedTarget? with
  | some label => simp
  | none =>
    simp only [Except.ok.injEq, true_and]
    constructor
    · rintro rfl
      exact ⟨ascending, fun _ => FileSetGraph.mem_flatten_after_iff⟩
    · intro ⟨filesAscending, same⟩
      refine ascending.eq_of_mem_iff filesAscending fun path => ?_
      rw [same, FileSetGraph.mem_flatten_after_iff]

theorem exists_resolveOutputFiles (group : String) {events : List BuildEvent}
    (built : ∀ event ∈ events, FileSetGraph.failedTarget? event = none) :
    ∃ files, resolveOutputFiles group events = .ok files := by
  rw [resolveOutputFiles_eq, List.findSome?_eq_none_iff.2 built]
  exact ⟨_, rfl⟩

theorem exists_label_of_failed (group : String) {events : List BuildEvent}
    (failed : ¬∀ event ∈ events, FileSetGraph.failedTarget? event = none) :
    ∃ label, resolveOutputFiles group events = .error (.targetFailed label) := by
  rw [← List.findSome?_eq_none_iff] at failed
  obtain ⟨label, found⟩ := Option.ne_none_iff_exists'.1 failed
  rw [resolveOutputFiles_eq, found]
  exact ⟨label, rfl⟩

/-- The order in which events are told, and how often, makes no difference. -/
theorem resolveOutputFiles_of_same_events {group : String} {events others : List BuildEvent}
    (same : ∀ event, event ∈ events ↔ event ∈ others) (consistent : Consistent others) :
    (∃ label otherLabel,
      resolveOutputFiles group events = .error (.targetFailed label) ∧
      resolveOutputFiles group others = .error (.targetFailed otherLabel)) ∨
    ∃ files, resolveOutputFiles group events = .ok files ∧
      resolveOutputFiles group others = .ok files := by
  have inside : ∀ event ∈ events, event ∈ others := fun event => (same event).1
  have back : ∀ event ∈ others, event ∈ events := fun event => (same event).2
  by_cases built : ∀ event ∈ others, FileSetGraph.failedTarget? event = none
  · obtain ⟨files, resolved⟩ := exists_resolveOutputFiles group built
    obtain ⟨-, ascending, produced⟩ := resolveOutputFiles_eq_ok_iff.1 resolved
    have produces : ∀ path, path ∈ files ↔ Produces group events path := by
      intro path
      rw [produced]
      exact ⟨fun produces => produces.mono back (consistent.mono inside),
        fun produces => produces.mono inside consistent⟩
    have builtEvents : ∀ event ∈ events, FileSetGraph.failedTarget? event = none :=
      fun event member => built event (inside event member)
    exact .inr ⟨files, resolveOutputFiles_eq_ok_iff.2 ⟨builtEvents, ascending, produces⟩, resolved⟩
  · have failed : ¬∀ event ∈ events, FileSetGraph.failedTarget? event = none :=
      fun builtEvents => built fun event member => builtEvents event (back event member)
    obtain ⟨label, stopped⟩ := exists_label_of_failed group failed
    obtain ⟨otherLabel, otherStopped⟩ := exists_label_of_failed group built
    exact .inl ⟨label, otherLabel, stopped, otherStopped⟩

/-- Of events that do not contradict each other, some resolve to no other files than all do, and the
same events in another order, or told more than once, to the same list. -/
theorem resolveOutputFiles_mono (group : String) (events others : List BuildEvent)
    (inside : ∀ event ∈ events, event ∈ others) (consistent : Consistent others) :
    (∀ otherFiles, resolveOutputFiles group others = .ok otherFiles →
      ∃ files, resolveOutputFiles group events = .ok files ∧ ∀ file ∈ files, file ∈ otherFiles) ∧
    ((∀ event ∈ others, event ∈ events) →
      (∃ label otherLabel,
        resolveOutputFiles group events = .error (.targetFailed label) ∧
        resolveOutputFiles group others = .error (.targetFailed otherLabel)) ∨
      ∃ files, resolveOutputFiles group events = .ok files ∧
        resolveOutputFiles group others = .ok files) := by
  constructor
  · intro otherFiles resolved
    obtain ⟨built, -, produced⟩ := resolveOutputFiles_eq_ok_iff.1 resolved
    have builtEvents : ∀ event ∈ events, FileSetGraph.failedTarget? event = none :=
      fun event member => built event (inside event member)
    obtain ⟨files, found⟩ := exists_resolveOutputFiles group builtEvents
    obtain ⟨-, -, producedHere⟩ := resolveOutputFiles_eq_ok_iff.1 found
    refine ⟨files, found, fun file member => ?_⟩
    have produces := (producedHere file).1 member
    exact (produced file).2 (produces.mono inside consistent)
  · intro back
    exact resolveOutputFiles_of_same_events (fun event => ⟨inside event, back event⟩) consistent

/-- A set that is listed before it is defined, and whose child is told twice, against the other
order; without the child the same events lose its file. -/
theorem resolveOutputFiles_mono_late_definition :
    let root : BuildEvent :=
      ⟨⟨some "//a", none⟩, false, none, some ⟨true, [⟨"data", ["1"], false⟩]⟩⟩
    let parent : BuildEvent :=
      ⟨⟨none, some "1"⟩, false, some ⟨[{ name := "p" }], ["0", ""]⟩, none⟩
    let child : BuildEvent := ⟨⟨none, some "0"⟩, false, some ⟨[{ name := "c" }], ["1"]⟩, none⟩
    let events := [root, child, parent, child]
    Consistent events ∧
    (resolveOutputFiles "data" events = .ok ["c", "p"] ∧
      ∃ files, resolveOutputFiles "data" [parent, root] = .ok files ∧
        ∀ file ∈ files, file ∈ ["c", "p"]) ∧
    ((∃ label otherLabel,
        resolveOutputFiles "data" [parent, root, child] = .error (.targetFailed label) ∧
        resolveOutputFiles "data" events = .error (.targetFailed otherLabel)) ∨
      ∃ files, resolveOutputFiles "data" [parent, root, child] = .ok files ∧
        resolveOutputFiles "data" events = .ok files) := by
  intro root parent child events
  have consistent : Consistent events := consistent_of_unique (by decide)
  let graph : FileSetGraph :=
    ⟨[("0", ["c"]), ("1", ["p"])], [("0", ["1"]), ("1", ["0"])], ["1"], 4, 1⟩
  have observed : FileSetGraph.after "data" events = graph := by decide +kernel
  have walked : graph.walkRoots = ⟨["0", "1"], 2⟩ := by
    have childOfParent : recorded "1" graph.children = ["0"] := by decide +kernel
    have childOfChild : recorded "0" graph.children = ["1"] := by decide +kernel
    have roots : graph.roots = ["1"] := rfl
    simp [FileSetGraph.walkRoots, FileSetGraph.walkFrom, childOfParent, childOfChild, roots]
  have files : graph.flatten = ["c", "p"] := by
    rw [FileSetGraph.flatten, walked]
    decide +kernel
  have resolved : resolveOutputFiles "data" events = .ok ["c", "p"] := by
    have built : events.findSome? FileSetGraph.failedTarget? = none := by decide +kernel
    rw [resolveOutputFiles_eq, built, observed, files]
  have fewer : ∀ event ∈ [parent, root], event ∈ events := by decide
  have same : ∀ event ∈ [parent, root, child], event ∈ events := by decide
  have back : ∀ event ∈ events, event ∈ [parent, root, child] := by decide
  exact ⟨consistent,
    ⟨resolved, (resolveOutputFiles_mono "data" _ events fewer consistent).1 _ resolved⟩,
    (resolveOutputFiles_mono "data" _ events same consistent).2 back⟩

end GoMetadata
