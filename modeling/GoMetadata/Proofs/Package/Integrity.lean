import GoMetadata.Proofs.Package.Linking
import Mathlib.Data.List.Nodup

/-!
Referential integrity of linked packages. An import of a package names a package of the graph, or
the package has an error for it.
-/

namespace GoMetadata

namespace Descriptor

theorem map_id_keepFirst (kept : List Descriptor) (descriptor : Descriptor) :
    (keepFirst kept descriptor).map (·.id) =
      kept.map (·.id) ++ if descriptor.id ∈ kept.map (·.id) then [] else [descriptor.id] := by
  have known : kept.any (·.id == descriptor.id) = true ↔ descriptor.id ∈ kept.map (·.id) := by
    simp only [List.any_eq_true, beq_iff_eq, List.mem_map]
  unfold keepFirst
  simp only [known]
  split
  · rw [List.append_nil]
  · rw [List.map_append, List.map_singleton]

theorem map_id_firsts (descriptors : List Descriptor) :
    (firsts descriptors).map (·.id) = (descriptors.map (·.id)).eraseDups := by
  induction descriptors using List.reverseRecOn with
  | nil => rfl
  | append_singleton descriptors descriptor ih =>
    rw [firsts_eq_foldl] at ih ⊢
    rw [List.foldl_concat, map_id_keepFirst, ih, List.map_append, List.map_singleton,
      Text.eraseDups_concat]
    simp only [List.mem_eraseDups]

/-- What linking makes of a descriptor among packages of known ids. The imports in `absent` name no
package; each of them adds an error. -/
structure Links (known : List String) (descriptor : Descriptor) (absent : List (String × String))
    (package : Descriptor) : Prop where
  package_eq : package = { descriptor with
    errors := descriptor.errors ++ absent.map fun (path, id) =>
      { position := ""
        message := "could not import " ++ path ++ " (no metadata for " ++ id ++ ")"
        kind := 1 } }
  perm : absent.Perm (descriptor.imports.filter fun entry => entry.2 ∉ known)
  ascending : absent.Pairwise fun left right => left.1 ≤ right.1

theorem perm_sortedImports (descriptor : Descriptor) :
    descriptor.sortedImports.Perm descriptor.imports :=
  List.mergeSort_perm _ _

theorem ascending_sortedImports (descriptor : Descriptor) :
    descriptor.sortedImports.Pairwise fun left right => left.1 ≤ right.1 := by
  let byPath := fun left right : String × String => decide (left.1 ≤ right.1)
  have transitive : ∀ first second third, byPath first second = true →
      byPath second third = true → byPath first third = true := by
    simp only [byPath, decide_eq_true_eq]
    exact fun _ _ _ => le_trans
  have total : ∀ left right, (byPath left right || byPath right left) = true := by
    simp only [byPath, Bool.or_eq_true, decide_eq_true_eq]
    exact fun _ _ => le_total _ _
  have sorted : descriptor.sortedImports.Pairwise fun left right => byPath left right = true :=
    List.pairwise_mergeSort transitive total _
  exact sorted.imp fun before => of_decide_eq_true before

theorem links_link (known : List String) (descriptor : Descriptor) :
    descriptor.Links known (descriptor.sortedImports.filter fun entry => entry.2 ∉ known)
      (descriptor.link known) where
  package_eq := rfl
  perm := descriptor.perm_sortedImports.filter _
  ascending := descriptor.ascending_sortedImports.filter _

namespace Links

variable {known : List String} {descriptor package : Descriptor} {absent : List (String × String)}

theorem mem_iff (links : descriptor.Links known absent package) (entry : String × String) :
    entry ∈ absent ↔ entry ∈ descriptor.imports ∧ entry.2 ∉ known := by
  rw [links.perm.mem_iff, List.mem_filter, decide_eq_true_eq]

theorem nodup_paths (links : descriptor.Links known absent package)
    (once : (descriptor.imports.map Prod.fst).Nodup) : (absent.map Prod.fst).Nodup := by
  have kept : ((descriptor.imports.filter fun entry => entry.2 ∉ known).map Prod.fst).Nodup :=
    once.sublist (List.filter_sublist.map Prod.fst)
  exact (links.perm.map Prod.fst).nodup_iff.2 kept

theorem ascending_paths (links : descriptor.Links known absent package)
    (once : (descriptor.imports.map Prod.fst).Nodup) : Text.Ascending (absent.map Prod.fst) :=
  (List.pairwise_map.2 links.ascending).imp₂ (fun _ _ => lt_of_le_of_ne) (links.nodup_paths once)

theorem path_mem_iff (links : descriptor.Links known absent package)
    (once : (descriptor.imports.map Prod.fst).Nodup) {path id : String}
    (member : (path, id) ∈ descriptor.imports) : path ∈ absent.map Prod.fst ↔ id ∉ known := by
  constructor
  · intro named
    obtain ⟨entry, missing, same⟩ := List.mem_map.1 named
    obtain ⟨imported, unknown⟩ := (links.mem_iff entry).1 missing
    -- Among the imports a path has one id only, so the missing import is this one.
    have only : entry = (path, id) := List.inj_on_of_nodup_map once imported member same
    rwa [only] at unknown
  · intro unknown
    exact List.mem_map_of_mem ((links.mem_iff (path, id)).2 ⟨member, unknown⟩)

end Links

end Descriptor

namespace PackageGraph

theorem ids_ofDescriptors (descriptors : List Descriptor) :
    (ofDescriptors descriptors).ids = (descriptors.map (·.id)).eraseDups := by
  rw [← Descriptor.map_id_firsts, ids, ofDescriptors, List.map_map]
  rfl

/-- A graph has one package for each id, in the order in which the ids first occur: the first
descriptor of the id with an error added for each import that names no package of the graph, in the
order of the import paths. No path is twice in a map of imports, so each import of a package either
names a package and adds no error, or adds exactly one. -/
theorem links_ofDescriptors (descriptors : List Descriptor) :
    let graph := ofDescriptors descriptors
    graph.ids = (descriptors.map (·.id)).eraseDups ∧ graph.ids.Nodup ∧
      ∀ id ∈ graph.ids, ∃ first absent package,
        descriptors.find? (·.id == id) = some first ∧ graph.find? id = some package ∧
          first.Links graph.ids absent package ∧
          ((first.imports.map Prod.fst).Nodup →
            Text.Ascending (absent.map Prod.fst) ∧
              ∀ path imported, (path, imported) ∈ package.imports →
                (graph.find? imported).isSome ∧ path ∉ absent.map Prod.fst ∨
                  graph.find? imported = none ∧ (absent.map Prod.fst).count path = 1) := by
  intro graph
  have ids : graph.ids = (descriptors.map (·.id)).eraseDups := ids_ofDescriptors descriptors
  refine ⟨ids, ids ▸ Text.nodup_eraseDups _, fun id known => ?_⟩
  obtain ⟨package, found⟩ := Option.isSome_iff_exists.1 (mem_ids_iff.1 known)
  obtain ⟨first, isFirst, rfl⟩ : ∃ first, descriptors.find? (·.id == id) = some first ∧
      first.link graph.ids = package := by
    rw [← Option.map_eq_some_iff, ids, ← Descriptor.map_id_firsts, ← find?_ofDescriptors]
    exact found
  have links := first.links_link graph.ids
  refine ⟨first, _, _, isFirst, found, links, fun once => ⟨links.ascending_paths once, ?_⟩⟩
  intro path imported member
  by_cases present : imported ∈ graph.ids
  · exact .inl ⟨mem_ids_iff.1 present, mt (links.path_mem_iff once member).1 (not_not.2 present)⟩
  · have absent := mt mem_ids_iff.2 present
    refine .inr ⟨Option.not_isSome_iff_eq_none.1 absent, ?_⟩
    exact List.count_eq_one_of_mem (links.nodup_paths once)
      ((links.path_mem_iff once member).2 present)

example :
    (ofDescriptors [
      { id := "//a", imports := [("x/c", "//none"), ("x/b", "//b"), ("x/a", "//none")] },
      { id := "//b", imports := [("x/b", "//b"), ("x/a", "//a")] },
      { id := "//a", imports := [("x/d", "//none")] }]).packages.map (·.errors.map (·.message)) =
    [["could not import x/a (no metadata for //none)",
      "could not import x/c (no metadata for //none)"], []] := by
  cbv

end PackageGraph

end GoMetadata
