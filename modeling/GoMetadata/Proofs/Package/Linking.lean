import GoMetadata.Package
import GoMetadata.Proofs.Text.Basic

/-!
Which descriptors a graph of packages holds: of each id the first one, linked.
-/

namespace GoMetadata

namespace Descriptor

def keepFirst (kept : List Descriptor) (descriptor : Descriptor) : List Descriptor :=
  if kept.any (·.id == descriptor.id) then kept else kept ++ [descriptor]

theorem firsts_eq_foldl (descriptors : List Descriptor) :
    firsts descriptors = descriptors.foldl keepFirst [] :=
  rfl

theorem find?_keepFirst (kept : List Descriptor) (descriptor : Descriptor) (id : String) :
    (keepFirst kept descriptor).find? (·.id == id) =
      (kept ++ [descriptor]).find? (·.id == id) := by
  unfold keepFirst
  split
  next known =>
    -- The descriptor left out has the id of one that is kept, so no search would reach it.
    rw [List.find?_append]
    by_cases same : descriptor.id = id
    · have found : (kept.find? (·.id == id)).isSome := by
        rw [List.find?_isSome]
        rw [same, List.any_eq_true] at known
        exact known
      exact (Option.or_of_isSome found).symm
    · have skipped : [descriptor].find? (·.id == id) = none := by simp [same]
      rw [skipped, Option.or_none]
  next => rfl

theorem find?_foldl_keepFirst (kept descriptors : List Descriptor) (id : String) :
    (descriptors.foldl keepFirst kept).find? (·.id == id) =
      (kept ++ descriptors).find? (·.id == id) := by
  induction descriptors generalizing kept with
  | nil => rw [List.foldl_nil, List.append_nil]
  | cons descriptor descriptors ih =>
    calc
      _ = (keepFirst kept descriptor ++ descriptors).find? (·.id == id) := ih _
      _ = (kept ++ [descriptor] ++ descriptors).find? (·.id == id) := by
        rw [List.find?_append, find?_keepFirst, ← List.find?_append]
      _ = (kept ++ descriptor :: descriptors).find? (·.id == id) := by
        rw [List.append_assoc, List.singleton_append]

/-- The descriptors that stand are found where all are searched for the first of an id. -/
theorem find?_firsts (descriptors : List Descriptor) (id : String) :
    (firsts descriptors).find? (·.id == id) = descriptors.find? (·.id == id) := by
  rw [firsts_eq_foldl, find?_foldl_keepFirst, List.nil_append]

theorem exists_id_iff_isSome_find? {descriptors : List Descriptor} {id : String} :
    (∃ descriptor ∈ descriptors, descriptor.id = id) ↔
      (descriptors.find? (·.id == id)).isSome := by
  simp only [List.find?_isSome, beq_iff_eq]

theorem exists_id_firsts_iff {descriptors : List Descriptor} {id : String} :
    (∃ descriptor ∈ firsts descriptors, descriptor.id = id) ↔
      ∃ descriptor ∈ descriptors, descriptor.id = id := by
  rw [exists_id_iff_isSome_find?, exists_id_iff_isSome_find?, find?_firsts]

end Descriptor

namespace PackageGraph

theorem find?_ofDescriptors (descriptors : List Descriptor) (id : String) :
    (ofDescriptors descriptors).find? id =
      (descriptors.find? (·.id == id)).map
        (Descriptor.link ((Descriptor.firsts descriptors).map (·.id))) := by
  rw [find?, ofDescriptors, List.find?_map, ← Descriptor.find?_firsts]
  rfl

theorem mem_ids_iff {graph : PackageGraph} {id : String} :
    id ∈ graph.ids ↔ (graph.find? id).isSome := by
  rw [ids, List.mem_map, Descriptor.exists_id_iff_isSome_find?]
  rfl

theorem id_of_find? {graph : PackageGraph} {id : String} {package : Descriptor}
    (found : graph.find? id = some package) : package.id = id := by
  have same := List.find?_some found
  exact beq_iff_eq.1 same

theorem map_id_sortedPackages (graph : PackageGraph) :
    graph.sortedPackages.map (·.id) = Text.sortDistinct graph.ids := by
  have found : ∀ ids : List String, (∀ id ∈ ids, id ∈ graph.ids) →
      (ids.filterMap graph.find?).map (·.id) = ids := by
    intro ids known
    induction ids with
    | nil => rfl
    | cons id ids ih =>
      have present : (graph.find? id).isSome := mem_ids_iff.1 (known id List.mem_cons_self)
      obtain ⟨package, found⟩ := Option.isSome_iff_exists.1 present
      rw [List.filterMap_cons_some found, List.map_cons, id_of_find? found,
        ih fun other member => known other (List.mem_cons_of_mem _ member)]
  exact found _ fun id => Text.mem_sortDistinct.1

theorem mem_ids_sortedPackages_iff {graph : PackageGraph} {id : String} :
    id ∈ graph.sortedPackages.map (·.id) ↔ id ∈ graph.ids := by
  rw [map_id_sortedPackages, Text.mem_sortDistinct]

theorem mem_ids_ofDescriptors_iff {descriptors : List Descriptor} {id : String} :
    id ∈ (ofDescriptors descriptors).ids ↔ ∃ descriptor ∈ descriptors, descriptor.id = id := by
  rw [mem_ids_iff, find?_ofDescriptors, Option.isSome_map, Descriptor.exists_id_iff_isSome_find?]

theorem find?_of_mem_sortedPackages {graph : PackageGraph} {package : Descriptor}
    (member : package ∈ graph.sortedPackages) : graph.find? package.id = some package := by
  obtain ⟨id, -, found⟩ := List.mem_filterMap.1 member
  rw [id_of_find? found]
  exact found

/-- A package of a linked graph is the first descriptor of its id, but for the errors. -/
theorem exists_first_of_mem_sortedPackages {descriptors : List Descriptor} {package : Descriptor}
    (member : package ∈ (ofDescriptors descriptors).sortedPackages) :
    ∃ descriptor, descriptors.find? (·.id == package.id) = some descriptor ∧
      package = { descriptor with errors := package.errors } := by
  have found := find?_of_mem_sortedPackages member
  rw [find?_ofDescriptors, Option.map_eq_some_iff] at found
  obtain ⟨descriptor, first, linked⟩ := found
  refine ⟨descriptor, first, ?_⟩
  rw [← linked]
  rfl

theorem mem_selectRoots_iff {graph : PackageGraph} {targets : List String} {id : String} :
    id ∈ graph.selectRoots targets ↔
      id ∈ graph.ids ∧ ∃ target ∈ targets, Label.selects target id = true := by
  rw [selectRoots, Text.mem_sortDistinct, List.mem_filter, List.any_eq_true]

end PackageGraph

end GoMetadata
