import GoMetadata.FileSet
import GoMetadata.Proofs.Text.Basic
import Mathlib.Order.Bounds.Basic

/-!
What a walk over the graph of file sets finds. Whatever cycles there are, a walk visits the least
set of ids that holds the roots and, with every id, the children recorded for it; the files found
are those recorded for the visited ids.
-/

namespace GoMetadata.FileSetGraph

def HasChild (graph : FileSetGraph) (id child : SetId) : Prop :=
  ∃ children, graph.children.lookup id = some children ∧ child ∈ children

def HasFile (graph : FileSetGraph) (id : SetId) (path : String) : Prop :=
  ∃ paths, graph.files.lookup id = some paths ∧ path ∈ paths

/-- Sets of ids that hold the roots and all children of their members. -/
structure Closed (graph : FileSetGraph) (ids : Set SetId) : Prop where
  roots : ∀ id ∈ graph.roots, id ∈ ids
  children : ∀ id ∈ ids, ∀ child, graph.HasChild id child → child ∈ ids

theorem mem_recorded_iff {key value : String} {entries : List (String × List String)} :
    value ∈ recorded key entries ↔ ∃ values, entries.lookup key = some values ∧ value ∈ values := by
  rw [recorded]
  cases entries.lookup key <;> simp

/-- Walks, step by step: an id that has been visited is dropped, any other is visited and those of
its children that are still unvisited are put on the stack. -/
inductive Walks (graph : FileSetGraph) : Walk → List SetId → Walk → Prop where
  | done {walk : Walk} : Walks graph walk [] walk
  | seen {walk result : Walk} {id : SetId} {stack : List SetId} : id ∈ walk.visited →
      Walks graph ⟨walk.visited, walk.pops + 1⟩ stack result → Walks graph walk (id :: stack) result
  | fresh {walk result : Walk} {id : SetId} {stack : List SetId} : id ∉ walk.visited →
      Walks graph ⟨id :: walk.visited, walk.pops + 1⟩
        (((recorded id graph.children).filter (· ∉ id :: walk.visited)).reverse ++ stack) result →
      Walks graph walk (id :: stack) result

theorem walks_walkFrom (graph : FileSetGraph) (walk : Walk) (stack : List SetId) :
    graph.Walks walk stack (graph.walkFrom walk stack) := by
  fun_induction walkFrom graph walk stack with
  | case1 walk => exact .done
  | case2 walk id stack seen ih => exact .seen seen ih
  | case3 walk id stack fresh visited leaf ih =>
    refine .fresh fresh ?_
    rw [leaf]
    exact ih
  | case4 walk id stack fresh visited inner found ih => exact .fresh fresh ih

/-- The ids on top of the stack are done with before those below them are looked at. -/
theorem Walks.append {graph : FileSetGraph} {walk middle result : Walk} {first second : List SetId}
    (walks : graph.Walks walk first middle) (next : graph.Walks middle second result) :
    graph.Walks walk (first ++ second) result := by
  induction walks with
  | done => exact next
  | seen seen _ ih => exact .seen seen (ih next)
  | fresh fresh _ ih =>
    have rest := ih next
    rw [List.append_assoc] at rest
    exact .fresh fresh rest

theorem walks_foldl (graph : FileSetGraph) (walk : Walk) (roots : List SetId) :
    graph.Walks walk roots (roots.foldl (fun walk root => graph.walkFrom walk [root]) walk) := by
  induction roots generalizing walk with
  | nil => exact .done
  | cons root roots ih => exact (graph.walks_walkFrom walk [root]).append (ih _)

theorem walks_walkRoots (graph : FileSetGraph) : graph.Walks {} graph.roots graph.walkRoots :=
  graph.walks_foldl {} graph.roots

theorem Walks.mem_visited {graph : FileSetGraph} {walk result : Walk} {stack : List SetId}
    (walks : graph.Walks walk stack result) {id : SetId}
    (started : id ∈ walk.visited ∨ id ∈ stack) : id ∈ result.visited := by
  induction walks with
  | done => simpa using started
  | seen seen _ ih =>
    refine ih (started.elim .inl fun member => ?_)
    rcases List.mem_cons.1 member with rfl | later
    · exact .inl seen
    · exact .inr later
  | fresh fresh _ ih =>
    refine ih (started.elim (fun before => .inl (List.mem_cons_of_mem _ before)) fun member => ?_)
    rcases List.mem_cons.1 member with rfl | later
    · exact .inl List.mem_cons_self
    · exact .inr (List.mem_append_right _ later)

/-- The invariant of a walk: every child of a visited id has been visited or will be. -/
def Pending (graph : FileSetGraph) (visited stack : List SetId) : Prop :=
  ∀ id ∈ visited, ∀ child, graph.HasChild id child → child ∈ visited ∨ child ∈ stack

theorem Pending.fresh {graph : FileSetGraph} {visited stack : List SetId} {id : SetId}
    (pending : graph.Pending visited (id :: stack)) :
    graph.Pending (id :: visited)
      (((recorded id graph.children).filter (· ∉ id :: visited)).reverse ++ stack) := by
  intro parent member child hasChild
  by_cases already : child ∈ id :: visited
  · exact .inl already
  rcases List.mem_cons.1 member with rfl | before
  · have found : child ∈ recorded parent graph.children := mem_recorded_iff.2 hasChild
    exact .inr (List.mem_append_left _ (by simpa [found] using already))
  · rcases pending parent before child hasChild with visited | stacked
    · exact .inl (List.mem_cons_of_mem _ visited)
    · rcases List.mem_cons.1 stacked with rfl | later
      · exact .inl List.mem_cons_self
      · exact .inr (List.mem_append_right _ later)

theorem Walks.pending {graph : FileSetGraph} {walk result : Walk} {stack : List SetId}
    (walks : graph.Walks walk stack result) (pending : graph.Pending walk.visited stack) :
    graph.Pending result.visited [] := by
  induction walks with
  | done => exact pending
  | seen seen _ ih =>
    refine ih fun parent member child hasChild => ?_
    rcases pending parent member child hasChild with visited | stacked
    · exact .inl visited
    · rcases List.mem_cons.1 stacked with rfl | later
      · exact .inl seen
      · exact .inr later
  | fresh fresh _ ih => exact ih pending.fresh

/-- A walk never leaves a set of ids that is closed under children. -/
theorem Walks.visited_subset {graph : FileSetGraph} {walk result : Walk} {stack : List SetId}
    (walks : graph.Walks walk stack result) {ids : Set SetId}
    (closed : ∀ id ∈ ids, ∀ child, graph.HasChild id child → child ∈ ids)
    (started : ∀ id, id ∈ walk.visited ∨ id ∈ stack → id ∈ ids) :
    ∀ id ∈ result.visited, id ∈ ids := by
  induction walks with
  | done => exact fun id member => started id (.inl member)
  | seen seen _ ih =>
    exact ih fun id start => started id (start.imp_right (List.mem_cons_of_mem _))
  | @fresh walk result parent stack fresh _ ih =>
    refine ih fun id start => ?_
    rcases start with visited | stacked
    · rcases List.mem_cons.1 visited with rfl | before
      · exact started id (.inr List.mem_cons_self)
      · exact started id (.inl before)
    · rcases List.mem_append.1 stacked with child | later
      · have found : id ∈ recorded parent graph.children :=
          List.mem_of_mem_filter (List.mem_reverse.1 child)
        exact closed parent (started parent (.inr List.mem_cons_self)) id (mem_recorded_iff.1 found)
      · exact started id (.inr (List.mem_cons_of_mem _ later))

theorem mem_reachable_iff {graph : FileSetGraph} {id : SetId} :
    id ∈ graph.reachable ↔ id ∈ graph.walkRoots.visited :=
  Text.mem_sortDistinct

theorem closed_reachable (graph : FileSetGraph) : graph.Closed {id | id ∈ graph.reachable} where
  roots := by
    intro id root
    exact mem_reachable_iff.2 (graph.walks_walkRoots.mem_visited (.inr root))
  children := by
    intro id reached child hasChild
    have pending := graph.walks_walkRoots.pending (by simp [Pending])
    have visited := pending id (mem_reachable_iff.1 reached) child hasChild
    exact mem_reachable_iff.2 (visited.resolve_right List.not_mem_nil)

theorem reachable_subset {graph : FileSetGraph} {ids : Set SetId} (closed : graph.Closed ids) :
    ∀ id ∈ graph.reachable, id ∈ ids := by
  intro id reached
  refine graph.walks_walkRoots.visited_subset closed.children ?_ id (mem_reachable_iff.1 reached)
  intro start
  rintro (visited | root)
  · cases visited
  · exact closed.roots start root

theorem mem_flatten_iff {graph : FileSetGraph} {path : String} :
    path ∈ graph.flatten ↔ ∃ id ∈ graph.reachable, graph.HasFile id path := by
  rw [flatten, Text.mem_sortDistinct, List.mem_flatMap]
  refine exists_congr fun id => and_congr mem_reachable_iff.symm mem_recorded_iff

/-- The walk finds the least closed set of ids, and flattening lists the files of exactly these ids
in strictly ascending order. -/
theorem reachable_isLeast_and_flatten (graph : FileSetGraph) :
    IsLeast {ids : Set SetId | graph.Closed ids} {id | id ∈ graph.reachable} ∧
    Text.Ascending graph.flatten ∧
    ∀ path, path ∈ graph.flatten ↔ ∃ id ∈ graph.reachable, graph.HasFile id path :=
  ⟨⟨graph.closed_reachable, fun _ closed => reachable_subset closed⟩,
    Text.ascending_sortDistinct _, fun _ => mem_flatten_iff⟩

end GoMetadata.FileSetGraph
