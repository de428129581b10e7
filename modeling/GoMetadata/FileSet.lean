import GoMetadata.BuildEvent
import GoMetadata.Text.Basic

/-!
The graph of named file sets that a build announces. A set may be named, as a root or as a child,
before the event that defines it, so events only record ids; the files are collected once the whole
log has been seen, by a walk over everything that the roots lead to.
-/

namespace GoMetadata

def recorded (key : String) (entries : List (String × List String)) : List String :=
  (entries.lookup key).getD []

structure FileSetGraph where
  files : List (SetId × List String) := []
  children : List (SetId × List SetId) := []
  /-- The sets that completed targets list under the requested output group. -/
  roots : List SetId := []
  eventCount : Nat := 0
  completedCount : Nat := 0
  deriving DecidableEq, Repr, Inhabited

structure Halted where
  error : DriverError
  graph : FileSetGraph
  deriving DecidableEq, Repr

namespace FileSetGraph

/-- Records the first definition of a set; an event without one defines the empty set. -/
def define (graph : FileSetGraph) (id : SetId) (definition : Option NamedSet) : FileSetGraph :=
  if graph.files.any (·.1 == id) then graph
  else
    let set := definition.getD {}
    { graph with
      files := graph.files ++ [(id, set.files.map File.path)]
      children := graph.children ++ [(id, set.children.filter (· ≠ ""))] }

def rootsOf (group : String) (completion : Completion) : List SetId :=
  (completion.outputGroups.filter (·.name = group)).flatMap fun found =>
    found.fileSets.filter (· ≠ "")

def count (graph : FileSetGraph) (event : BuildEvent) : FileSetGraph :=
  { graph with
    eventCount := graph.eventCount + 1
    completedCount := graph.completedCount + (if event.id.targetCompleted.isSome then 1 else 0) }

def failedTarget? (event : BuildEvent) : Option String :=
  match event.id.targetCompleted, event.completion with
  | none, _ => none
  | some label, none => some label
  | some label, some completion => if completion.success then none else some label

/-- Takes one event in. A target that was not built stops the observation, and of its event only
the counts are kept. -/
def observe (group : String) (graph : FileSetGraph) (event : BuildEvent) :
    Except Halted FileSetGraph :=
  let graph := graph.count event
  match failedTarget? event with
  | some label => .error ⟨.targetFailed label, graph⟩
  | none =>
    let added :=
      match event.id.targetCompleted, event.completion with
      | some _, some completion => rootsOf group completion
      | _, _ => []
    let graph := { graph with roots := graph.roots ++ added }
    match event.id.namedSet with
    | none => .ok graph
    | some id => .ok (if id = "" then graph else graph.define id event.definition)

def observeAll (group : String) (graph : FileSetGraph) (events : List BuildEvent) :
    Except Halted FileSetGraph :=
  events.foldlM (observe group) graph

/-- Takes in the events of a log while it is being read, so a target that was not built is noticed
before anything that is wrong with the bytes after it. -/
def observeLogFrom (group : String) (graph : FileSetGraph) (offset : Nat) (bytes : Bytes) :
    Except Halted FileSetGraph :=
  match _read : readEvent bytes with
  | .error fault => .error ⟨fault.error offset, graph⟩
  | .ok (event, rest) =>
    match graph.observe group event with
    | .error halted => .error halted
    | .ok graph =>
      if event.lastMessage then .ok graph
      else observeLogFrom group graph (offset + (bytes.length - rest.length)) rest
termination_by bytes.length
decreasing_by exact length_lt_of_readEvent _read

def observeLog (group : String) (graph : FileSetGraph) (bytes : Bytes) :
    Except Halted FileSetGraph :=
  graph.observeLogFrom group 0 bytes

/-- A walk over the graph: the sets visited so far, the latest first, and how many ids have been
taken off the stack. -/
structure Walk where
  visited : List SetId := []
  pops : Nat := 0
  deriving DecidableEq, Repr

def unvisited (graph : FileSetGraph) (visited : List SetId) : List (SetId × List SetId) :=
  graph.children.filter fun entry => entry.1 ∉ visited

theorem unvisited_cons (graph : FileSetGraph) (id : SetId) (visited : List SetId) :
    graph.unvisited (id :: visited) =
      (graph.unvisited visited).filter fun entry => entry.1 ≠ id := by
  unfold unvisited
  rw [List.filter_filter]
  congr 1
  funext entry
  simp [not_or]

theorem length_unvisited_cons_le (graph : FileSetGraph) (id : SetId) (visited : List SetId) :
    (graph.unvisited (id :: visited)).length ≤ (graph.unvisited visited).length := by
  rw [unvisited_cons]
  exact List.length_filter_le ..

theorem exists_entry_of_recorded {key : String} {entries : List (String × List String)}
    (found : recorded key entries ≠ []) : ∃ entry ∈ entries, entry.1 = key := by
  refine Classical.byContradiction fun absent => found ?_
  have none : entries.lookup key = none := by
    rw [List.lookup_eq_none_iff]
    intro entry inside
    simp only [bne_iff_ne, ne_eq]
    exact fun same => absent ⟨entry, inside, same.symm⟩
  simp [recorded, none]

theorem length_unvisited_cons_lt {graph : FileSetGraph} {id : SetId} {visited : List SetId}
    (fresh : id ∉ visited) (defined : recorded id graph.children ≠ []) :
    (graph.unvisited (id :: visited)).length < (graph.unvisited visited).length := by
  obtain ⟨entry, inside, same⟩ := exists_entry_of_recorded defined
  rw [unvisited_cons]
  refine List.length_filter_lt_length_iff_exists.2 ⟨entry, ?_, by simp [same]⟩
  simp [unvisited, inside, same, fresh]

/-- Visits everything that the ids on the stack lead to, the top of the stack first. A set that has
been visited, or has no children, puts nothing on the stack. -/
def walkFrom (graph : FileSetGraph) (walk : Walk) : List SetId → Walk
  | [] => walk
  | id :: stack =>
    if _seen : id ∈ walk.visited then
      graph.walkFrom { walk with pops := walk.pops + 1 } stack
    else
      let visited := id :: walk.visited
      if _leaf : recorded id graph.children = [] then
        graph.walkFrom ⟨visited, walk.pops + 1⟩ stack
      else
        let found := (recorded id graph.children).filter (· ∉ visited)
        graph.walkFrom ⟨visited, walk.pops + 1⟩ (found.reverse ++ stack)
termination_by stack => ((graph.unvisited walk.visited).length, stack.length)
decreasing_by
  · exact Prod.Lex.right _ (by simp)
  · rcases Nat.lt_or_eq_of_le (graph.length_unvisited_cons_le id walk.visited) with less | same
    · exact Prod.Lex.left _ _ less
    · simp only [same]
      exact Prod.Lex.right _ (by simp)
  · exact Prod.Lex.left _ _ (length_unvisited_cons_lt _seen _leaf)

def walkRoots (graph : FileSetGraph) : Walk :=
  graph.roots.foldl (fun walk root => graph.walkFrom walk [root]) {}

def reachable (graph : FileSetGraph) : List SetId :=
  Text.sortDistinct graph.walkRoots.visited

def flatten (graph : FileSetGraph) : List String :=
  Text.sortDistinct (graph.walkRoots.visited.flatMap fun id => recorded id graph.files)

end FileSetGraph

def resolveOutputFiles (group : String) (events : List BuildEvent) :
    Except DriverError (List String) :=
  match FileSetGraph.observeAll group {} events with
  | .error halted => .error halted.error
  | .ok graph => .ok graph.flatten

def resolveOutputFilesOfLog (group : String) (bytes : Bytes) :
    Except DriverError (List String) :=
  match FileSetGraph.observeLog group {} bytes with
  | .error halted => .error halted.error
  | .ok graph => .ok graph.flatten

end GoMetadata
