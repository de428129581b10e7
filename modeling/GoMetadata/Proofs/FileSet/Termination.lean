import GoMetadata.Proofs.FileSet.Reachability
import Mathlib.Data.List.Nodup

/-!
The walk over a graph of file sets comes to an end, whatever cycles there are. It is two loops: that
over the roots puts the next root on the empty stack, and that over the stack takes an id off it,
drops the id if it has been visited, and otherwise visits it and puts its unvisited children on the
stack. The stack may grow by any turn and hold an id many times; what never grows is the stack with
the roots to come and with all children of the ids that are still to be visited.
-/

namespace GoMetadata.FileSetGraph

structure Position where
  visited : List SetId := []
  stack : List SetId := []
  roots : List SetId := []
  deriving DecidableEq, Repr

inductive Move where
  | start (root : SetId)
  | drop (id : SetId)
  /-- An id is taken off the stack and visited, and its unvisited children are put on the stack. -/
  | expand (id : SetId)
  deriving DecidableEq, Repr

def popped : List Move → List SetId
  | [] => []
  | .start _ :: moves => popped moves
  | .drop id :: moves => id :: popped moves
  | .expand id :: moves => id :: popped moves

def expanded : List Move → List SetId
  | [] => []
  | .start _ :: moves => expanded moves
  | .drop _ :: moves => expanded moves
  | .expand id :: moves => id :: expanded moves

theorem popped_cons (move : Move) (moves : List Move) :
    popped (move :: moves) = popped [move] ++ popped moves := by
  cases move <;> rfl

def turn (graph : FileSetGraph) (position : Position) : Option (Move × Position) :=
  match position with
  | ⟨visited, id :: stack, roots⟩ =>
    if id ∈ visited then some (.drop id, ⟨visited, stack, roots⟩)
    else
      let found := (recorded id graph.children).filter (· ∉ id :: visited)
      some (.expand id, ⟨id :: visited, found.reverse ++ stack, roots⟩)
  | ⟨visited, [], root :: roots⟩ => some (.start root, ⟨visited, [root], roots⟩)
  | ⟨_, [], []⟩ => none

/-- The loops run from a position by these moves to the last position, which no turn follows. -/
inductive Runs (graph : FileSetGraph) : Position → List Move → Position → Prop where
  | done {position : Position} : graph.turn position = none → Runs graph position [] position
  | next {position after last : Position} {move : Move} {moves : List Move} :
      graph.turn position = some (move, after) → Runs graph after moves last →
      Runs graph position (move :: moves) last

inductive Turns (graph : FileSetGraph) : Position → Move → Position → Prop where
  | start {visited roots : List SetId} {root : SetId} :
      Turns graph ⟨visited, [], root :: roots⟩ (.start root) ⟨visited, [root], roots⟩
  | drop {visited stack roots : List SetId} {id : SetId} : id ∈ visited →
      Turns graph ⟨visited, id :: stack, roots⟩ (.drop id) ⟨visited, stack, roots⟩
  | expand {visited stack roots : List SetId} {id : SetId} : id ∉ visited →
      Turns graph ⟨visited, id :: stack, roots⟩ (.expand id)
        ⟨id :: visited,
          ((recorded id graph.children).filter (· ∉ id :: visited)).reverse ++ stack, roots⟩

theorem turns_of_turn {graph : FileSetGraph} {position after : Position} {move : Move}
    (turned : graph.turn position = some (move, after)) : graph.Turns position move after := by
  obtain ⟨visited, stack, roots⟩ := position
  cases stack with
  | cons id stack =>
    rw [turn] at turned
    split at turned
    next seen =>
      cases turned
      exact .drop seen
    next fresh =>
      cases turned
      exact .expand fresh
  | nil =>
    cases roots with
    | cons root roots =>
      cases turned
      exact .start
    | nil => cases turned

theorem eq_of_turn_eq_none {graph : FileSetGraph} {position : Position}
    (ended : graph.turn position = none) : position = { visited := position.visited } := by
  obtain ⟨visited, stack, roots⟩ := position
  cases stack with
  | cons id stack =>
    rw [turn] at ended
    split at ended <;> cases ended
  | nil =>
    cases roots with
    | cons root roots => cases ended
    | nil => rfl

section Result

variable {graph : FileSetGraph} {visited stack : List SetId} {id : SetId} {pops : Nat}

theorem walkFrom_of_mem (seen : id ∈ visited) :
    graph.walkFrom ⟨visited, pops⟩ (id :: stack) = graph.walkFrom ⟨visited, pops + 1⟩ stack := by
  rw [walkFrom, dif_pos seen]

theorem walkFrom_of_not_mem (fresh : id ∉ visited) :
    graph.walkFrom ⟨visited, pops⟩ (id :: stack) =
      graph.walkFrom ⟨id :: visited, pops + 1⟩
        (((recorded id graph.children).filter (· ∉ id :: visited)).reverse ++ stack) := by
  rw [walkFrom, dif_neg fresh]
  split
  next leaf =>
    rw [leaf]
    rfl
  next => rfl

def walkOn (graph : FileSetGraph) (position : Position) (pops : Nat) : Walk :=
  position.roots.foldl (fun walk root => graph.walkFrom walk [root])
    (graph.walkFrom ⟨position.visited, pops⟩ position.stack)

theorem Turns.walkOn_eq {position after : Position} {move : Move}
    (turns : graph.Turns position move after) (pops : Nat) :
    graph.walkOn position pops = graph.walkOn after (pops + (popped [move]).length) := by
  cases turns with
  | start =>
    rw [walkOn, walkFrom]
    rfl
  | drop seen =>
    rw [walkOn, walkFrom_of_mem seen]
    rfl
  | expand fresh =>
    rw [walkOn, walkFrom_of_not_mem fresh]
    rfl

theorem Runs.walkOn_eq {position last : Position} {moves : List Move}
    (runs : graph.Runs position moves last) (pops : Nat) :
    graph.walkOn position pops = ⟨last.visited, pops + (popped moves).length⟩ := by
  induction runs generalizing pops with
  | done ended =>
    rw [eq_of_turn_eq_none ended, walkOn, walkFrom]
    rfl
  | @next position after last move moves turned _ ih =>
    rw [(turns_of_turn turned).walkOn_eq, ih, popped_cons move moves, List.length_append,
      Nat.add_assoc]

theorem Runs.last_eq {position last : Position} {moves : List Move}
    (runs : graph.Runs position moves last) : last = { visited := last.visited } := by
  induction runs with
  | done ended => exact eq_of_turn_eq_none ended
  | next _ _ ih => exact ih

theorem Runs.visited_eq {position last : Position} {moves : List Move}
    (runs : graph.Runs position moves last) :
    last.visited = (expanded moves).reverse ++ position.visited := by
  induction runs with
  | done => rfl
  | next turned _ ih =>
    rw [ih]
    cases turns_of_turn turned with
    | start => rfl
    | drop => rfl
    | expand =>
      rw [expanded, List.reverse_cons, List.append_assoc]
      rfl

theorem Runs.nodup_visited {position last : Position} {moves : List Move}
    (runs : graph.Runs position moves last) (distinct : position.visited.Nodup) :
    last.visited.Nodup := by
  induction runs with
  | done => exact distinct
  | next turned _ ih =>
    refine ih ?_
    cases turns_of_turn turned with
    | start => exact distinct
    | drop => exact distinct
    | expand fresh => exact List.nodup_cons.2 ⟨fresh, distinct⟩

end Result

section Measure

def childCount (graph : FileSetGraph) (ids : List SetId) : Nat :=
  (ids.flatMap fun id => recorded id graph.children).length

def ahead (graph : FileSetGraph) (visited : List SetId) : List SetId :=
  graph.reachable.filter (· ∉ visited)

/-- The most ids that can still be taken off the stack. -/
def capacity (graph : FileSetGraph) (position : Position) : Nat :=
  position.stack.length + position.roots.length + graph.childCount (graph.ahead position.visited)

def Within (graph : FileSetGraph) (position : Position) : Prop :=
  ∀ id ∈ position.stack ++ position.roots, id ∈ graph.reachable

variable {graph : FileSetGraph} {position after : Position} {move : Move}

/-- An id that is visited takes its children out of those that are ahead. -/
theorem childCount_ahead {visited : List SetId} {id : SetId} (reached : id ∈ graph.reachable)
    (fresh : id ∉ visited) :
    graph.childCount (graph.ahead visited) =
      (recorded id graph.children).length + graph.childCount (graph.ahead (id :: visited)) := by
  have inside : id ∈ graph.ahead visited := List.mem_filter.2 ⟨reached, by simpa using fresh⟩
  have distinct : (graph.ahead visited).Nodup :=
    (Text.ascending_sortDistinct _).nodup.filter _
  have erased : (graph.ahead visited).erase id = graph.ahead (id :: visited) := by
    rw [distinct.erase_eq_filter, ahead, ahead, List.filter_filter]
    refine List.filter_congr fun other _ => ?_
    rw [Bool.eq_iff_iff]
    simp
  calc
    graph.childCount (graph.ahead visited) =
        graph.childCount (id :: (graph.ahead visited).erase id) :=
      ((List.perm_cons_erase inside).flatMap_right _).length_eq
    _ = (recorded id graph.children).length + graph.childCount ((graph.ahead visited).erase id) := by
      rw [childCount, List.flatMap_cons, List.length_append]
      rfl
    _ = _ := by rw [erased]

theorem Turns.within (turns : graph.Turns position move after) (within : graph.Within position) :
    graph.Within after := by
  cases turns with
  | start => exact within
  | drop => exact fun id member => within id (List.mem_cons_of_mem _ member)
  | @expand visited stack roots parent _ =>
    intro id member
    rw [List.append_assoc, List.mem_append, List.mem_reverse] at member
    rcases member with child | before
    · have hasChild : graph.HasChild parent id :=
        mem_recorded_iff.1 (List.mem_of_mem_filter child)
      exact graph.closed_reachable.children parent (within parent List.mem_cons_self) id hasChild
    · exact within id (List.mem_cons_of_mem _ before)

theorem Turns.capacity_le (turns : graph.Turns position move after)
    (within : graph.Within position) :
    (popped [move]).length + graph.capacity after ≤ graph.capacity position := by
  cases turns with
  | start =>
    simp only [popped, capacity, List.length_cons, List.length_nil]
    omega
  | drop =>
    simp only [popped, capacity, List.length_cons, List.length_nil]
    omega
  | @expand visited stack roots id fresh =>
    have spent := childCount_ahead (within id List.mem_cons_self) fresh
    have less := List.length_filter_le (· ∉ id :: visited) (recorded id graph.children)
    simp only [popped, capacity, spent, List.length_cons, List.length_nil, List.length_append,
      List.length_reverse]
    omega

theorem Turns.length_popped (turns : graph.Turns position move after) :
    (popped [move]).length + position.roots.length = after.roots.length + 1 := by
  cases turns with
  | start => exact Nat.zero_add _
  | drop => exact Nat.add_comm 1 _
  | expand => exact Nat.add_comm 1 _

theorem exists_runs (graph : FileSetGraph) (position : Position) (within : graph.Within position) :
    ∃ moves last, graph.Runs position moves last ∧
      (popped moves).length ≤ graph.capacity position := by
  cases turned : graph.turn position with
  | none => exact ⟨[], position, .done turned, Nat.zero_le _⟩
  | some found =>
    obtain ⟨move, after⟩ := found
    have turns := turns_of_turn turned
    have spent := turns.capacity_le within
    have shorter := turns.length_popped
    obtain ⟨moves, last, runs, bound⟩ := exists_runs graph after (turns.within within)
    refine ⟨move :: moves, last, .next turned runs, ?_⟩
    rw [popped_cons, List.length_append]
    omega
-- A turn that takes nothing off the stack starts a root, and then fewer roots are to come.
termination_by graph.capacity position + position.roots.length
decreasing_by omega

end Measure

/-- On every graph the two loops run to their end. They visit what the walk visits, and take as many
ids off the stack; every id that the roots lead to is visited, and its children looked through, just
once, and so no more ids are taken off the stack than there are roots and children of these ids. -/
theorem walk_ends (graph : FileSetGraph) :
    ∃ moves, graph.Runs { roots := graph.roots } moves { visited := graph.walkRoots.visited } ∧
      (expanded moves).Nodup ∧ (∀ id, id ∈ expanded moves ↔ id ∈ graph.reachable) ∧
      (popped moves).length = graph.walkRoots.pops ∧
      graph.walkRoots.pops ≤ graph.roots.length + graph.childCount graph.reachable := by
  have within : graph.Within { roots := graph.roots } :=
    fun id root => graph.closed_reachable.roots id root
  obtain ⟨moves, last, runs, bound⟩ := graph.exists_runs _ within
  have walked : graph.walkRoots = ⟨last.visited, (popped moves).length⟩ := by
    have whole := runs.walkOn_eq 0
    rw [walkOn, walkFrom, Nat.zero_add] at whole
    exact whole
  have visited : last.visited = (expanded moves).reverse := by
    rw [runs.visited_eq, List.append_nil]
  have all : graph.ahead [] = graph.reachable := List.filter_eq_self.2 fun _ _ => rfl
  refine ⟨moves, ?_, ?_, fun id => ?_, ?_, ?_⟩
  · rw [walked]
    exact runs.last_eq ▸ runs
  · rw [← List.nodup_reverse, ← visited]
    exact runs.nodup_visited List.nodup_nil
  · rw [mem_reachable_iff, walked, visited, List.mem_reverse]
  · rw [walked]
  · rw [walked]
    simpa only [capacity, all, List.length_nil, Nat.zero_add] using bound

end GoMetadata.FileSetGraph
