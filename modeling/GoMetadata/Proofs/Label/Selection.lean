import GoMetadata.Proofs.Label.Spelling
import GoMetadata.Proofs.Package.Linking
import Mathlib.Data.List.DropRight

/-!
Which packages a target asks for, told by the parts of labels. The texts of a target and of an id
are compared as strings; this comes to a comparison of repositories, segments and names.
-/

namespace GoMetadata.Label

inductive Target where
  | named (package : Package) (name : TargetName)
  | below (package : Package)

namespace Target

inductive Spelled : Target → List Char → Prop where
  | named {package : Package} {name : TargetName} {text : List Char}
      (spells : Spells package name text) : Spelled (named package name) text
  | below {package : Package} {text : List Char} (spells : SpellsBelow package text) :
      Spelled (below package) text

/-- Whether a target asks for the package of an id, which has a name itself. -/
def Asks : Target → Package → TargetName → Prop
  | named wanted wantedName, package, name =>
    wanted.repository.Same package.repository ∧ wanted.segments = package.segments ∧
      (wantedName.IsWildcard ∨ wantedName = name)
  | below wanted, package, _ =>
    wanted.repository.Same package.repository ∧ wanted.segments <+: package.segments

end Target

theorem isWildcard_iff {name : TargetName} :
    isWildcard name.text.toList = true ↔ name.IsWildcard := by
  simp only [isWildcard, Bool.or_eq_true, beq_iff_eq, String.toList_inj, TargetName.IsWildcard,
    or_assoc]

theorem TargetName.toList_inj {name other : TargetName} :
    name.text.toList = other.text.toList ↔ name = other := by
  rw [String.toList_inj, TargetName.ext_iff]

theorem toList_text_injective : Function.Injective fun segment : Segment => segment.text.toList :=
  fun _ _ same => Segment.ext (String.toList_inj.1 same)

section Packages

variable {package wanted : Package}

theorem Package.parts_inj : wanted.parts = package.parts ↔ wanted.segments = package.segments :=
  (List.map_injective_iff.2 toList_text_injective).eq_iff

theorem Package.parts_prefix_iff :
    wanted.parts <+: package.parts ↔ wanted.segments <+: package.segments :=
  List.prefix_map_iff_of_injective toList_text_injective

theorem Package.not_nil_mem_parts : [] ∉ package.parts :=
  fun member => package.ne_nil_of_mem_parts member rfl

theorem Package.normal_inj :
    package.normal = wanted.normal ↔
      wanted.repository.Same package.repository ∧ wanted.segments = package.segments := by
  rw [Repository.same_iff, ← Package.parts_inj]
  constructor
  · intro same
    have pieces := congrArg (Text.pieces isSlash) same
    rw [package.pieces_normal, wanted.pieces_normal, List.cons.injEq, List.cons.injEq] at pieces
    obtain ⟨roots, -, parts⟩ := pieces
    refine ⟨roots.symm, ?_⟩
    by_cases none : package.parts = []
    · by_cases wantedNone : wanted.parts = []
      · rw [none, wantedNone]
      · rw [if_pos none, if_neg wantedNone] at parts
        exact absurd (parts ▸ List.mem_singleton_self []) wanted.not_nil_mem_parts
    · by_cases wantedNone : wanted.parts = []
      · rw [if_neg none, if_pos wantedNone] at parts
        exact absurd (parts ▸ List.mem_singleton_self []) package.not_nil_mem_parts
      · rw [if_neg none, if_neg wantedNone] at parts
        exact parts.symm
  · intro ⟨roots, parts⟩
    rw [Package.normal, Package.normal, roots, parts]

theorem Package.prefix_of_pieces {parts others more : List (List Char)} (full : [] ∉ parts)
    (same : (if others = [] then [[]] else others) = parts ++ more) : parts <+: others := by
  by_cases none : others = []
  · rw [if_pos none] at same
    cases parts with
    | nil => exact List.nil_prefix
    | cons part rest =>
      rw [List.cons_append, List.cons.injEq] at same
      exact absurd (same.1 ▸ List.mem_cons_self) full
  · rw [if_neg none] at same
    exact ⟨more, same.symm⟩

/-- The base of a recursive target: the package itself or, for a whole repository, what stands
before the slashes. -/
def Package.base (package : Package) : List Char :=
  if package.parts = [] then package.repository.root else package.normal

def Package.lastPart (package : Package) : List Char :=
  package.parts.getLast?.getD []

theorem Package.exists_normal_eq (package : Package) :
    ∃ before, package.normal = before ++ '/' :: package.lastPart :=
  exists_written_eq _ _

theorem Package.lastPart_mem (nonempty : package.parts ≠ []) :
    package.lastPart ∈ package.parts := by
  rw [Package.lastPart, List.getLast?_eq_getLast_of_ne_nil nonempty]
  exact List.getLast_mem nonempty

theorem Package.not_mem_lastPart (package : Package) : '/' ∉ package.lastPart := by
  intro slash
  by_cases none : package.parts = []
  · rw [Package.lastPart, none] at slash
    cases slash
  · exact (package.arePlain_parts _ (lastPart_mem none) _ slash).1 rfl

theorem Package.rdropWhile_stem (package : Package) :
    (stem package.repository.root package.parts).rdropWhile isSlash = package.base := by
  unfold stem Package.base
  by_cases none : package.parts = []
  · rw [if_pos none, if_pos none, List.rdropWhile_concat_pos isSlash _ _ rfl,
      List.rdropWhile_eq_self_iff]
    intro nonempty slash
    exact (package.repository.plain_root _ (List.getLast_mem nonempty)).1 (beq_iff_eq.1 slash)
  · obtain ⟨before, shape⟩ := package.exists_normal_eq
    have full : package.lastPart ≠ [] := package.ne_nil_of_mem_parts (lastPart_mem none)
    obtain ⟨front, c, last⟩ := (List.eq_nil_or_concat' package.lastPart).resolve_left full
    have other : ¬isSlash c = true := by
      intro slash
      apply package.not_mem_lastPart
      rw [last, ← beq_iff_eq.1 slash]
      exact List.mem_append_right _ List.mem_cons_self
    rw [if_neg none, if_neg none, ← Package.normal, shape, last, ← List.cons_append,
      ← List.append_assoc, List.rdropWhile_concat_neg _ _ _ other]

theorem Package.below_iff :
    (package.normal == wanted.base || (wanted.base ++ ['/']).isPrefixOf package.normal) = true ↔
      wanted.repository.Same package.repository ∧ wanted.segments <+: package.segments := by
  rw [Bool.or_eq_true, beq_iff_eq, List.isPrefixOf_iff_prefix, Repository.same_iff,
    ← Package.parts_prefix_iff]
  have pieces := package.pieces_normal
  constructor
  · intro inside
    obtain ⟨more, same⟩ : ∃ more, Text.pieces isSlash package.normal =
        Text.pieces isSlash wanted.base ++ more := by
      rcases inside with same | ⟨rest, same⟩
      · exact ⟨[], by rw [same, List.append_nil]⟩
      · refine ⟨Text.pieces isSlash rest, ?_⟩
        rw [← same, List.append_assoc, List.singleton_append, Text.pieces_append_cons rfl]
    rw [pieces] at same
    unfold Package.base at same
    by_cases none : wanted.parts = []
    · have root : Text.pieces isSlash wanted.repository.root = [wanted.repository.root] :=
        Text.pieces_eq_singleton
          fun c member => isSlash_eq_false (wanted.repository.plain_root c member).1
      rw [if_pos none, root, List.singleton_append, List.cons.injEq] at same
      rw [none]
      exact ⟨same.1.symm, List.nil_prefix⟩
    · rw [if_neg none, wanted.pieces_normal, if_neg none, List.cons_append, List.cons_append,
        List.cons.injEq, List.cons.injEq] at same
      obtain ⟨roots, -, parts⟩ := same
      exact ⟨roots.symm, prefix_of_pieces wanted.not_nil_mem_parts parts⟩
  · intro ⟨roots, more, parts⟩
    unfold Package.base
    by_cases none : wanted.parts = []
    · right
      refine ⟨'/' :: ['/'].intercalate package.parts, ?_⟩
      rw [if_pos none, roots, Package.normal, written, List.append_assoc, List.singleton_append]
    · rw [if_neg none]
      by_cases nothing : more = []
      · left
        rw [nothing, List.append_nil] at parts
        rw [Package.normal, Package.normal, roots, parts]
      · right
        refine ⟨['/'].intercalate more, ?_⟩
        rw [List.append_assoc, List.singleton_append, Package.normal, Package.normal, ← parts,
          written_append _ _ nothing, stem, if_neg none, roots]

end Packages

theorem Package.not_recursive (package : Package) :
    recursiveEnding.isSuffixOf package.normal = false := by
  rw [← Bool.not_eq_true, List.isSuffixOf_iff_suffix]
  intro ⟨front, same⟩
  obtain ⟨before, shape⟩ := package.exists_normal_eq
  have dots : '/' ∉ "...".toList := by decide
  have parts : some (front, "...".toList) = some (before, package.lastPart) :=
    calc
      _ = splitLast? '/' package.normal := by
        rw [← same]
        exact (splitLast?_append dots).symm
      _ = some (before, package.lastPart) := by
        rw [shape]
        exact splitLast?_append package.not_mem_lastPart
  have last : "...".toList = package.lastPart := congrArg Prod.snd (Option.some.inj parts)
  by_cases none : package.parts = []
  · rw [Package.lastPart, none] at last
    exact absurd last (by decide)
  · apply package.not_mem_parts
    rw [last]
    exact lastPart_mem none

def selectsParts (target id : List Char × List Char) : Bool :=
  if recursiveEnding.isSuffixOf target.1 then
    let base := (target.1.take (target.1.length - recursiveEnding.length)).rdropWhile isSlash
    id.1 == base || (base ++ ['/']).isPrefixOf id.1
  else if isWildcard target.2 then id.1 == target.1
  else id.1 == target.1 && id.2 == target.2

theorem selectsChars_eq (target id : List Char) :
    selectsChars target id = (normalize id == normalize target ||
      selectsParts (split (normalize target)) (split (normalize id))) :=
  rfl

theorem selectsParts_named_iff (package wanted : Package) (name wantedName : TargetName) :
    selectsParts (wanted.normal, wantedName.text.toList) (package.normal, name.text.toList) = true ↔
      (Target.named wanted wantedName).Asks package name := by
  have packages : (package.normal == wanted.normal) = true ↔
      wanted.repository.Same package.repository ∧ wanted.segments = package.segments :=
    beq_iff_eq.trans Package.normal_inj
  have names : (name.text.toList == wantedName.text.toList) = true ↔ wantedName = name := by
    rw [beq_iff_eq, TargetName.toList_inj]
    exact eq_comm
  have single : ¬recursiveEnding.isSuffixOf wanted.normal = true :=
    ne_true_of_eq_false wanted.not_recursive
  rw [selectsParts, if_neg single, Target.Asks, ← and_assoc, ← packages]
  by_cases wildcard : isWildcard wantedName.text.toList = true
  · rw [if_pos wildcard, or_iff_left_of_imp fun _ => isWildcard_iff.1 wildcard]
    exact (and_iff_left (isWildcard_iff.1 wildcard)).symm
  · rw [if_neg wildcard, or_iff_right (mt isWildcard_iff.2 wildcard), Bool.and_eq_true, names]

theorem selectsParts_below_iff (package wanted : Package) (name : TargetName)
    (wantedName : List Char) :
    selectsParts (stem wanted.repository.root wanted.parts ++ recursiveEnding, wantedName)
        (package.normal, name.text.toList) = true ↔
      (Target.below wanted).Asks package name := by
  have recursive : recursiveEnding.isSuffixOf
      (stem wanted.repository.root wanted.parts ++ recursiveEnding) = true :=
    List.isSuffixOf_iff_suffix.2 (List.suffix_append _ _)
  rw [selectsParts, if_pos recursive, List.length_append, Nat.add_sub_cancel,
    List.take_left' rfl, wanted.rdropWhile_stem]
  exact Package.below_iff

/-- A target asks for the package of an id as its parts say, however both are written. -/
theorem selectsChars_iff {package : Package} {name : TargetName} {wanted : Target}
    {id target : List Char} (spells : Spells package name id) (spelled : wanted.Spelled target) :
    selectsChars target id = true ↔ wanted.Asks package name := by
  have parts := split_normalize_of_spells spells
  rw [selectsChars_eq, Bool.or_eq_true, beq_iff_eq, parts]
  cases spelled with
  | @named wantedPackage wantedName _ wantedSpells =>
    have wantedParts := split_normalize_of_spells wantedSpells
    rw [wantedParts, selectsParts_named_iff]
    -- Where the texts are the same as they stand, so are the packages and the names in them.
    refine or_iff_right_of_imp fun same => ?_
    rw [same, wantedParts, Prod.mk.injEq] at parts
    obtain ⟨packages, names⟩ := parts
    obtain ⟨repositories, segments⟩ := Package.normal_inj.1 packages.symm
    exact ⟨repositories, segments, .inr (TargetName.toList_inj.1 names)⟩
  | @below wantedPackage _ wantedSpells =>
    obtain ⟨wantedName, wantedParts⟩ := exists_split_of_spellsBelow wantedSpells
    rw [wantedParts, selectsParts_below_iff]
    -- No id is written like a recursive target.
    refine or_iff_right_of_imp fun same => ?_
    rw [same, wantedParts, Prod.mk.injEq] at parts
    have recursive : recursiveEnding.isSuffixOf package.normal = true := by
      rw [← parts.1]
      exact List.isSuffixOf_iff_suffix.2 (List.suffix_append _ _)
    rw [package.not_recursive] at recursive
    cases recursive

/-- Targets and ids are compared by their parts, and the roots of a graph are exactly its ids that
some target asks for, in ascending order. -/
theorem selects_iff_asks_and_selectRoots :
    (∀ (package : Package) (name : TargetName) (wanted : Target) (id target : String),
      Spells package name id.toList → wanted.Spelled target.toList →
        (selects target id = true ↔ wanted.Asks package name)) ∧
    ∀ (graph : PackageGraph) (targets : List String),
      Text.Ascending (graph.selectRoots targets) ∧
      ∀ id, id ∈ graph.selectRoots targets ↔
        id ∈ graph.ids ∧ ∃ target ∈ targets, selects target id = true := by
  constructor
  · intro package name wanted id target spells spelled
    exact selectsChars_iff spells spelled
  · intro graph targets
    exact ⟨Text.ascending_sortDistinct _, fun _ => PackageGraph.mem_selectRoots_iff⟩

/-- A recursive target with a name behind it, and the id of a target whose name holds a slash, in a
repository that both write in ways of their own. -/
theorem selects_iff_asks_below :
    let a : Segment := ⟨"a", by decide, by decide, by simp⟩
    let b : Segment := ⟨"b", by decide, by decide, by simp⟩
    let name : TargetName := ⟨"c/...", by decide, by simp⟩
    let package : Package := ⟨.main 2, [a, b]⟩
    let wanted : Target := .below ⟨.main 1, [a]⟩
    Spells package name "@@//a/b:c/...".toList ∧ wanted.Spelled "@//a/...:all".toList ∧
      wanted.Asks package name ∧
      (selects "@//a/...:all" "@@//a/b:c/..." = true ↔ wanted.Asks package name) := by
  intro a b name package wanted
  have spells : Spells package name "@@//a/b:c/...".toList := by
    have text : "@@//a/b:c/...".toList = package.chars ++ ':' :: name.text.toList := by
      decide +kernel
    rw [text]
    exact .full
  have spelled : wanted.Spelled "@//a/...:all".toList := by
    let all : TargetName := ⟨"all", by decide, by simp⟩
    have wildcard : all.IsWildcard := .inl rfl
    have text : "@//a/...:all".toList =
        Package.charsBelow ⟨.main 1, [a]⟩ ++ ':' :: all.text.toList := by
      decide +kernel
    rw [text]
    exact .below (.all wildcard)
  have asks : wanted.Asks package name := ⟨trivial, [b], rfl⟩
  exact ⟨spells, spelled, asks,
    selects_iff_asks_and_selectRoots.1 package name wanted _ _ spells spelled⟩

end GoMetadata.Label
