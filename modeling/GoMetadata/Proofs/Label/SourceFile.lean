import GoMetadata.Proofs.Label.Selection

/-!
What a source file asks for. The label of a source file is cut to its package in one way, and the
packages that are reported are compared by cutting their ids in another; both cut at the same place,
so a source file asks for its own package and for no other.
-/

namespace GoMetadata.Label

section Texts

variable {before name : List Char}

theorem eq_of_append_colon {front base : List Char} (plainBefore : ':' ∉ before)
    (plain : ':' ∉ name) (same : front ++ ':' :: base = before ++ ':' :: name) : base = name := by
  have colons : (front ++ ':' :: base).count ':' = 1 := by
    rw [same, List.count_append, List.count_eq_zero.2 plainBefore, List.count_cons_self,
      List.count_eq_zero.2 plain]
  have none : base.count ':' = 0 := by
    rw [List.count_append, List.count_cons_self] at colons
    omega
  have cut : some (front, base) = some (before, name) := by
    rw [← splitLast?_append (List.count_eq_zero.1 none), same, splitLast?_append plain]
  exact congrArg Prod.snd (Option.some.inj cut)

theorem isPrefixOf_append_colon {start : List Char} (plain : ':' ∉ start)
    (before name : List Char) :
    start.isPrefixOf (before ++ ':' :: name) = start.isPrefixOf before := by
  induction start generalizing before with
  | nil => rfl
  | cons c start ih =>
    obtain ⟨head, tail⟩ := not_or.1 (mt List.mem_cons.2 plain)
    cases before with
    | nil => simp [List.isPrefixOf, Ne.symm head]
    | cons d before => simp only [List.cons_append, List.isPrefixOf, ih tail]

theorem normalize_append_colon (before name : List Char) :
    normalize (before ++ ':' :: name) = normalize before ++ ':' :: name := by
  have fits {start : List Char} (begins : start.isPrefixOf before = true) :
      start.length ≤ before.length :=
    (List.isPrefixOf_iff_prefix.1 begins).length_le
  rw [normalize, normalize, isPrefixOf_append_colon (by decide),
    isPrefixOf_append_colon (by decide)]
  split
  next twice => exact List.drop_append_of_le_length ((by decide : 2 ≤ 4).trans (fits twice))
  next =>
    split
    next once => exact List.drop_append_of_le_length ((by decide : 1 ≤ 3).trans (fits once))
    next => rfl

theorem split_normalize_append (before : List Char) (plain : ':' ∉ name) :
    split (normalize (before ++ ':' :: name)) = (normalize before, name) := by
  rw [normalize_append_colon]
  exact split_append plain

end Texts

theorem Repository.plain_chars (repository : Repository) :
    ∀ c ∈ repository.chars, c ≠ '/' ∧ c ≠ ':' := by
  intro c member
  cases repository with
  | main marks =>
    rw [List.eq_of_mem_replicate member]
    decide
  | named doubled name => exact (named doubled name).plain_root c member

namespace Package

variable (package : Package)

def text : String :=
  String.ofList package.chars

def label (name : String) : String :=
  package.text ++ ":" ++ name

theorem toList_label (name : String) :
    (package.label name).toList = package.chars ++ ':' :: name.toList := by
  simp [label, text]

theorem colon_not_mem_chars : ':' ∉ package.chars :=
  not_mem_written package.repository.plain_chars package.arePlain_parts

theorem normalize_chars : normalize package.chars = package.normal := by
  have normal := normalize_written package.repository package.parts []
  rwa [List.append_nil, List.append_nil] at normal

/-- The package of a source file's label, whether the label ends with the name of the file, which
may hold a colon, or with a name of its own, which does not. -/
theorem packageOf_label {name sourceFile : List Char} (full : name ≠ [])
    (named : ':' ∉ name ∨ name = baseName sourceFile) :
    packageOf (package.chars ++ ':' :: name) sourceFile = package.chars := by
  unfold packageOf
  dsimp only
  split
  next ends =>
    have base : baseName sourceFile = name := by
      rcases named with plain | same
      · obtain ⟨front, same⟩ := List.isSuffixOf_iff_suffix.1 ends.2
        exact eq_of_append_colon package.colon_not_mem_chars plain same
      · exact same.symm
    have length : (package.chars ++ ':' :: name).length - name.length - 1 =
        package.chars.length := by
      rw [List.length_append, List.length_cons]
      omega
    rw [base, length, List.take_left]
  next other =>
    have plain : ':' ∉ name := by
      rcases named with plain | same
      · exact plain
      · refine absurd ⟨same ▸ full, ?_⟩ other
        rw [← same]
        exact List.isSuffixOf_iff_suffix.2 (List.suffix_append _ _)
    rw [splitLast?_append plain]

theorem selectsChars_all_iff (id : List Char) {name : List Char} (plain : ':' ∉ name) :
    selectsChars (package.chars ++ ':' :: "all".toList) (id ++ ':' :: name) = true ↔
      normalize id = package.normal := by
  have parts := split_normalize_append id plain
  have wanted : split (normalize (package.chars ++ ':' :: "all".toList)) =
      (package.normal, "all".toList) := by
    rw [split_normalize_append package.chars (by decide), package.normalize_chars]
  have single : ¬recursiveEnding.isSuffixOf package.normal = true :=
    ne_true_of_eq_false package.not_recursive
  have wildcard : isWildcard "all".toList = true := by decide
  rw [selectsChars_eq, Bool.or_eq_true, beq_iff_eq, parts, wanted, selectsParts, if_neg single,
    if_pos wildcard, beq_iff_eq]
  -- The same text is cut into the same package.
  refine or_iff_right_of_imp fun same => ?_
  rw [same, wanted] at parts
  exact (congrArg Prod.fst parts).symm

end Package

/-- A source file asks for its own package. Its label, which may end with the name of the file or
with any other, also with one in a directory of the package, is cut to the package as it is written.
The target made of this asks for exactly the ids in that package, whatever their names are and
however the main repository is written, so these are its roots. -/
theorem selects_package_of_sourceFile (package : Package) (name sourceFile : String)
    (full : name ≠ "") (named : ':' ∉ name.toList ∨ name.toList = baseName sourceFile.toList) :
    Label.package (package.label name) sourceFile = package.text ∧
    (∀ id target : String, ':' ∉ target.toList →
      (selects (Label.package (package.label name) sourceFile ++ ":all") (id ++ ":" ++ target) =
        true ↔ normalize id.toList = package.normal)) ∧
    ∀ (other : Package) (target : String), ':' ∉ target.toList →
      (selects (Label.package (package.label name) sourceFile ++ ":all") (other.label target) =
        true ↔ other.normal = package.normal) ∧
      ∀ graph : PackageGraph,
        other.label target ∈
            graph.selectRoots [Label.package (package.label name) sourceFile ++ ":all"] ↔
          other.label target ∈ graph.ids ∧ other.normal = package.normal := by
  have cut : Label.package (package.label name) sourceFile = package.text := by
    rw [Label.package, package.toList_label,
      package.packageOf_label (mt String.toList_eq_nil_iff.1 full) named, Package.text]
  rw [cut]
  have chars : (package.text ++ ":all").toList = package.chars ++ ':' :: "all".toList := by
    simp [Package.text]
  have asks : ∀ id target : String, ':' ∉ target.toList →
      (selects (package.text ++ ":all") (id ++ ":" ++ target) = true ↔
        normalize id.toList = package.normal) := by
    intro id target plain
    have parts : (id ++ ":" ++ target).toList = id.toList ++ ':' :: target.toList := by simp
    rw [selects, chars, parts]
    exact package.selectsChars_all_iff id.toList plain
  refine ⟨rfl, asks, fun other target plain => ?_⟩
  have asksOther : selects (package.text ++ ":all") (other.label target) = true ↔
      other.normal = package.normal := by
    rw [Package.label, asks other.text target plain, Package.text, String.toList_ofList,
      other.normalize_chars]
  refine ⟨asksOther, fun graph => ?_⟩
  rw [PackageGraph.mem_selectRoots_iff, ← asksOther]
  simp only [List.mem_singleton, exists_eq_left]

/-- A file with a colon in its name, and a label with a name of its own in a directory below. The id
writes the main repository in another way, and has no name. -/
theorem selects_package_of_sourceFile_colon_or_directory :
    let a : Segment := ⟨"a", by decide, by decide, by simp⟩
    let package : Package := ⟨.main 2, [a]⟩
    let other : Package := ⟨.main 1, [a]⟩
    package.label "b:c.go" = "@@//a:b:c.go" ∧ other.label "" = "@//a:" ∧
      Label.package "@@//a:b:c.go" "x/b:c.go" = "@@//a" ∧
      Label.package "@@//a:d/e.go" "x/f.go" = "@@//a" ∧
      selects "@@//a:all" "@//a:" = true := by
  intro a package other
  have labels : package.label "b:c.go" = "@@//a:b:c.go" ∧ package.label "d/e.go" = "@@//a:d/e.go" ∧
      other.label "" = "@//a:" ∧ package.text = "@@//a" := by
    decide +kernel
  obtain ⟨colon, directory, id, text⟩ := labels
  obtain ⟨cutColon, -, asks⟩ := selects_package_of_sourceFile package "b:c.go" "x/b:c.go"
    (by decide) (.inr (by decide +kernel))
  obtain ⟨cutDirectory, -⟩ := selects_package_of_sourceFile package "d/e.go" "x/f.go"
    (by decide) (.inl (by decide))
  have selected := (asks other "" (by decide)).1.2 rfl
  rw [cutColon, text, id] at selected
  rw [colon, text] at cutColon
  rw [directory, text] at cutDirectory
  exact ⟨colon, id, cutColon, cutDirectory, selected⟩

end GoMetadata.Label
