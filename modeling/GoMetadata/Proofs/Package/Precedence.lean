import GoMetadata.Proofs.Package.Integrity
import GoMetadata.Proofs.Package.Loading
import Mathlib.Data.List.Forall2

/-!
What a linked graph depends on: the first descriptor of each id and nothing else. The packages,
their errors and the roots do not show in which order descriptors come, which others come later
under an id, or in which order a descriptor gives its imports.
-/

namespace GoMetadata

namespace Descriptor

/-- Descriptors that differ at most in the order of their imports. No path is twice among these. -/
structure Alike (descriptor other : Descriptor) : Prop where
  fields : { descriptor with imports := other.imports } = other
  imports : descriptor.imports.Perm other.imports
  once : (descriptor.imports.map Prod.fst).Nodup

section Linking

variable {known others : List String} {descriptor other : Descriptor}

theorem Alike.errors_eq (alike : descriptor.Alike other) : descriptor.errors = other.errors := by
  have errors := congrArg Descriptor.errors alike.fields
  exact errors

theorem Alike.sortedImports_eq (alike : descriptor.Alike other) :
    descriptor.sortedImports = other.sortedImports := by
  have perm : descriptor.sortedImports.Perm other.sortedImports :=
    descriptor.perm_sortedImports.trans (alike.imports.trans other.perm_sortedImports.symm)
  have once : (descriptor.sortedImports.map Prod.fst).Nodup :=
    (descriptor.perm_sortedImports.map Prod.fst).nodup_iff.2 alike.once
  have noCycle : ∀ left right, left ∈ descriptor.sortedImports → right ∈ other.sortedImports →
      left.1 ≤ right.1 → right.1 ≤ left.1 → left = right := by
    intro left right member otherMember below above
    have samePath : left.1 = right.1 := le_antisymm below above
    exact List.inj_on_of_nodup_map once member (perm.mem_iff.2 otherMember) samePath
  exact perm.eq_of_pairwise noCycle descriptor.ascending_sortedImports other.ascending_sortedImports

variable (same : ∀ id, id ∈ known ↔ id ∈ others)

include same

theorem missingImports_congr (sorted : descriptor.sortedImports = other.sortedImports) :
    descriptor.missingImports known = other.missingImports others := by
  rw [missingImports, missingImports, sorted]
  simp only [same]

theorem link_congr : descriptor.link known = descriptor.link others := by
  rw [link, link, missingImports_congr same rfl]

theorem Alike.link (alike : descriptor.Alike other) :
    (descriptor.link known).Alike (other.link others) where
  fields := by
    have errors := alike.errors_eq
    have missing := missingImports_congr same alike.sortedImports_eq
    rw [Descriptor.link, Descriptor.link, missing, errors, ← alike.fields]
  imports := alike.imports
  once := alike.once

end Linking

section Firsts

variable {descriptors others kept : List Descriptor}

theorem foldl_keepFirst_of_nodup (distinct : ((kept ++ descriptors).map (·.id)).Nodup) :
    descriptors.foldl keepFirst kept = kept ++ descriptors := by
  induction descriptors generalizing kept with
  | nil => rw [List.foldl_nil, List.append_nil]
  | cons descriptor descriptors ih =>
    have unknown : kept.any (·.id == descriptor.id) = false := by
      rw [List.map_append, List.nodup_append] at distinct
      rw [List.any_eq_false]
      intro earlier member same
      exact distinct.2.2 earlier.id (List.mem_map_of_mem member) descriptor.id List.mem_cons_self
        (beq_iff_eq.1 same)
    rw [List.append_cons] at distinct ⊢
    rw [List.foldl_cons, keepFirst, unknown]
    exact ih distinct

theorem firsts_of_nodup (distinct : (descriptors.map (·.id)).Nodup) :
    firsts descriptors = descriptors :=
  foldl_keepFirst_of_nodup distinct

theorem nodup_firsts (descriptors : List Descriptor) : ((firsts descriptors).map (·.id)).Nodup := by
  rw [map_id_firsts]
  exact Text.nodup_eraseDups _

theorem firsts_firsts (descriptors : List Descriptor) :
    firsts (firsts descriptors) = firsts descriptors :=
  firsts_of_nodup (nodup_firsts descriptors)

theorem firsts_eq_eraseDupsBy (descriptors : List Descriptor) :
    firsts descriptors = descriptors.eraseDupsBy fun later earlier => later.id == earlier.id := by
  have loop : ∀ kept : List Descriptor, descriptors.foldl keepFirst kept.reverse =
      List.eraseDupsBy.loop (fun later earlier => later.id == earlier.id) descriptors kept := by
    induction descriptors with
    | nil => exact fun kept => rfl
    | cons descriptor descriptors ih =>
      intro kept
      have known : kept.reverse.any (·.id == descriptor.id) =
          kept.any (descriptor.id == ·.id) := by
        rw [List.any_reverse]
        simp only [BEq.comm]
      rw [List.foldl_cons, keepFirst, known, List.eraseDupsBy.loop]
      cases kept.any (descriptor.id == ·.id) with
      | true => exact ih kept
      | false =>
        rw [← ih (descriptor :: kept), List.reverse_cons]
        rfl
  exact loop []

theorem find?_eq_some_iff_of_nodup (distinct : (descriptors.map (·.id)).Nodup) {id : String}
    {descriptor : Descriptor} :
    descriptors.find? (·.id == id) = some descriptor ↔
      descriptor ∈ descriptors ∧ descriptor.id = id := by
  constructor
  · intro found
    exact ⟨List.mem_of_find?_eq_some found, beq_iff_eq.1 (List.find?_some found :)⟩
  · rintro ⟨member, rfl⟩
    have present := exists_id_iff_isSome_find?.1 ⟨descriptor, member, rfl⟩
    obtain ⟨first, found⟩ := Option.isSome_iff_exists.1 present
    have same : first.id = descriptor.id := beq_iff_eq.1 (List.find?_some found :)
    rw [found, List.inj_on_of_nodup_map distinct (List.mem_of_find?_eq_some found) member same]

theorem find?_eq_of_perm (distinct : (descriptors.map (·.id)).Nodup)
    (perm : descriptors.Perm others) (id : String) :
    descriptors.find? (·.id == id) = others.find? (·.id == id) := by
  have otherDistinct : (others.map (·.id)).Nodup := (perm.map _).nodup_iff.1 distinct
  apply Option.ext
  intro descriptor
  rw [find?_eq_some_iff_of_nodup distinct, find?_eq_some_iff_of_nodup otherDistinct, perm.mem_iff]

end Firsts

end Descriptor

namespace PackageGraph

section Shown

variable {related : Descriptor → Descriptor → Prop} {graph other : PackageGraph}

/-- Graphs that show related packages, in the same order, and the same roots. -/
structure Agree (related : Descriptor → Descriptor → Prop) (graph other : PackageGraph) : Prop where
  packages : List.Forall₂ related graph.sortedPackages other.sortedPackages
  roots : ∀ targets, graph.selectRoots targets = other.selectRoots targets

theorem isSome_iff_of_rel {package counterpart : Option Descriptor}
    (together : Option.Rel related package counterpart) :
    package.isSome = true ↔ counterpart.isSome = true := by
  cases together <;> rfl

theorem forall₂_filterMap {find findOther : String → Option Descriptor}
    (found : ∀ id, Option.Rel related (find id) (findOther id)) (ids : List String) :
    List.Forall₂ related (ids.filterMap find) (ids.filterMap findOther) := by
  induction ids with
  | nil => exact .nil
  | cons id ids ih =>
    have head := found id
    rw [List.filterMap_cons, List.filterMap_cons]
    generalize find id = package, findOther id = counterpart at head
    cases head with
    | some together => exact .cons together ih
    | none => exact ih

theorem agree_of_find? (found : ∀ id, Option.Rel related (graph.find? id) (other.find? id)) :
    Agree related graph other := by
  have ids : ∀ id, id ∈ graph.ids ↔ id ∈ other.ids := by
    intro id
    rw [mem_ids_iff, mem_ids_iff]
    exact isSome_iff_of_rel (found id)
  constructor
  · have sorted : Text.sortDistinct graph.ids = Text.sortDistinct other.ids := by
      apply (Text.ascending_sortDistinct _).eq_of_mem_iff (Text.ascending_sortDistinct _)
      simpa only [Text.mem_sortDistinct] using ids
    rw [sortedPackages, sortedPackages, sorted]
    exact forall₂_filterMap found _
  · intro targets
    apply (Text.ascending_sortDistinct _).eq_of_mem_iff (Text.ascending_sortDistinct _)
    intro id
    rw [← selectRoots, ← selectRoots, mem_selectRoots_iff, mem_selectRoots_iff, ids]

/-- Linking keeps a relation of first descriptors that does not depend on how the known ids are
ordered. -/
theorem agree_ofDescriptors {descriptors others : List Descriptor}
    (linked : ∀ known otherKnown descriptor counterpart, (∀ id, id ∈ known ↔ id ∈ otherKnown) →
      related descriptor counterpart →
        related (descriptor.link known) (counterpart.link otherKnown))
    (first : ∀ id, Option.Rel related (descriptors.find? (·.id == id))
      (others.find? (·.id == id))) :
    Agree related (ofDescriptors descriptors) (ofDescriptors others) := by
  have known : ∀ id, id ∈ (Descriptor.firsts descriptors).map (·.id) ↔
      id ∈ (Descriptor.firsts others).map (·.id) := by
    intro id
    simp only [List.mem_map, Descriptor.exists_id_firsts_iff, Descriptor.exists_id_iff_isSome_find?]
    exact isSome_iff_of_rel (first id)
  apply agree_of_find?
  intro id
  have head := first id
  rw [find?_ofDescriptors, find?_ofDescriptors]
  generalize descriptors.find? (·.id == id) = descriptor,
    others.find? (·.id == id) = counterpart at head
  cases head with
  | some together => exact .some (linked _ _ _ _ known together)
  | none => exact .none

end Shown

theorem ofDescriptors_firsts (descriptors : List Descriptor) :
    ofDescriptors (Descriptor.firsts descriptors) = ofDescriptors descriptors := by
  rw [ofDescriptors, Descriptor.firsts_firsts]
  rfl

theorem eq_of_same_firsts {descriptors others : List Descriptor}
    (first : ∀ id, descriptors.find? (·.id == id) = others.find? (·.id == id)) :
    (ofDescriptors descriptors).sortedPackages = (ofDescriptors others).sortedPackages ∧
      ∀ targets, (ofDescriptors descriptors).selectRoots targets =
        (ofDescriptors others).selectRoots targets := by
  have linked : ∀ known otherKnown descriptor counterpart,
      (∀ id, id ∈ known ↔ id ∈ otherKnown) → descriptor = counterpart →
        Descriptor.link known descriptor = Descriptor.link otherKnown counterpart := by
    rintro known otherKnown descriptor _ same rfl
    exact Descriptor.link_congr same
  have equal : ∀ id, Option.Rel (· = ·) (descriptors.find? (·.id == id))
      (others.find? (·.id == id)) := by
    intro id
    rw [first id]
    cases others.find? (·.id == id) with
    | some descriptor => exact .some rfl
    | none => exact .none
  have agree := agree_ofDescriptors linked equal
  have packages := agree.packages
  rw [List.forall₂_eq_eq_eq] at packages
  exact ⟨packages, agree.roots⟩

/-- Linking depends on the first descriptor of each id only. Lists in which these are the same give
the same packages with the same errors, and the same roots, also where only the imports come in
another order. All orders of descriptors of distinct ids are such lists. The descriptors that come
later under an id may be taken out, as they are when files are loaded, and the graph stays what it
is. -/
theorem ofDescriptors_depends_on_firsts :
    (∀ descriptors others : List Descriptor,
      (∀ id, descriptors.find? (·.id == id) = others.find? (·.id == id)) →
        (ofDescriptors descriptors).sortedPackages = (ofDescriptors others).sortedPackages ∧
          ∀ targets, (ofDescriptors descriptors).selectRoots targets =
            (ofDescriptors others).selectRoots targets) ∧
    (∀ descriptors others : List Descriptor,
      (∀ id, Option.Rel Descriptor.Alike (descriptors.find? (·.id == id))
        (others.find? (·.id == id))) →
        Agree Descriptor.Alike (ofDescriptors descriptors) (ofDescriptors others)) ∧
    (∀ descriptors others : List Descriptor,
      (descriptors.map (·.id)).Nodup → descriptors.Perm others →
        (ofDescriptors descriptors).sortedPackages = (ofDescriptors others).sortedPackages ∧
          ∀ targets, (ofDescriptors descriptors).selectRoots targets =
            (ofDescriptors others).selectRoots targets) ∧
    (∀ descriptors : List Descriptor,
      ofDescriptors (descriptors.eraseDupsBy fun later earlier => later.id == earlier.id) =
        ofDescriptors descriptors) ∧
    ∀ (read : Path → Except Refusal Bytes) (root : Path) (names : List String)
      (loaded : List Descriptor),
      (descriptorFiles names).map (Descriptor.inFile read root) = loaded.map .ok →
        ∃ kept, Descriptor.loadFrom read root names = .ok kept ∧
          ofDescriptors kept = ofDescriptors loaded := by
  refine ⟨fun _ _ => eq_of_same_firsts, fun descriptors others first => ?_,
    fun descriptors others distinct perm => ?_, fun descriptors => ?_,
    fun read root names loaded mapped => ?_⟩
  · exact agree_ofDescriptors (fun _ _ _ _ same alike => alike.link same) first
  · exact eq_of_same_firsts (Descriptor.find?_eq_of_perm distinct perm)
  · rw [← Descriptor.firsts_eq_eraseDupsBy, ofDescriptors_firsts]
  · exact ⟨Descriptor.firsts loaded, Descriptor.loadFrom_eq_ok_iff.2 ⟨loaded, mapped, rfl⟩,
      ofDescriptors_firsts loaded⟩

def importing : Descriptor :=
  { id := "//a", imports := [("x/c", "//none"), ("x/b", "//b")] }

def importingReversed : Descriptor :=
  { id := "//a", imports := [("x/b", "//b"), ("x/c", "//none")] }

def imported : Descriptor := { id := "//b" }

def late : Descriptor := { id := "//a", name := "late" }

def oneIdEverywhere : Path → Except Refusal Bytes :=
  fun _ => .ok (Utf8.encode "\x7b\"ID\":\"//b\"\x7d")

/-- Two descriptors in either order, one of them again under the same id at the end, one with its
imports reordered, and two files of one id. -/
theorem ofDescriptors_depends_on_firsts_late_and_reordered :
    (∀ id, [importing, imported, late].find? (·.id == id) =
      [imported, importing].find? (·.id == id)) ∧
    (ofDescriptors [importing, imported, late]).sortedPackages =
      (ofDescriptors [imported, importing]).sortedPackages ∧
    Agree Descriptor.Alike (ofDescriptors [importing, imported])
      (ofDescriptors [imported, importingReversed]) ∧
    (ofDescriptors [importing, imported]).sortedPackages =
      (ofDescriptors [imported, importing]).sortedPackages ∧
    ∃ kept, Descriptor.loadFrom oneIdEverywhere (.ofText "/w") ["a.json", "b.json"] = .ok kept ∧
      ofDescriptors kept = ofDescriptors [imported, imported] := by
  obtain ⟨same, alike, reordered, -, load⟩ := ofDescriptors_depends_on_firsts
  have firsts : ∀ id, [importing, imported, late].find? (·.id == id) =
      [imported, importing].find? (·.id == id) := by
    intro id
    by_cases a : "//a" = id
    · subst a
      decide +kernel
    · by_cases b : "//b" = id <;> simp [importing, imported, late, a, b]
  have reversed : importing.Alike importingReversed := by
    refine ⟨rfl, List.Perm.swap _ _ _, ?_⟩
    decide +kernel
  have itself : imported.Alike imported := ⟨rfl, List.Perm.refl _, List.nodup_nil⟩
  have related : ∀ id, Option.Rel Descriptor.Alike ([importing, imported].find? (·.id == id))
      ([imported, importingReversed].find? (·.id == id)) := by
    intro id
    by_cases a : "//a" = id
    · subst a
      exact .some reversed
    · by_cases b : "//b" = id
      · subst b
        exact .some itself
      · simp [importing, importingReversed, imported, a, b]
  have held (name : String) :
      Descriptor.inFile oneIdEverywhere (.ofText "/w") name = .ok imported :=
    Descriptor.ofFile_eq_ok_iff.2
      ⟨"\x7b\"ID\":\"//b\"\x7d", [("ID", .text "//b")], rfl, by cbv, rfl⟩
  have mapped : (descriptorFiles ["a.json", "b.json"]).map
      (Descriptor.inFile oneIdEverywhere (.ofText "/w")) = [imported, imported].map .ok := by
    have names : descriptorFiles ["a.json", "b.json"] = ["a.json", "b.json"] := by decide +kernel
    rw [names, List.map_cons, List.map_singleton, held, held]
    rfl
  exact ⟨firsts, (same _ _ firsts).1, alike _ _ related,
    (reordered _ _ (by decide +kernel) (List.Perm.swap _ _ _)).1, load _ _ _ _ mapped⟩

end PackageGraph

end GoMetadata
