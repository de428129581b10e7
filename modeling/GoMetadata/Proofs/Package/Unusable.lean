import GoMetadata.Proofs.FileTree
import GoMetadata.Proofs.Json.Ascii
import GoMetadata.Proofs.Json.Overlong
import GoMetadata.Proofs.Package.Precedence

/-!
How loading ends where a file holds no descriptor. The first such file in order decides, whatever
was loaded before it: the report names it and says what is wrong with it. Two faults are not
reported: a path that the system cannot be asked for, and an integer of more digits than are read.
-/

namespace GoMetadata

namespace Descriptor

def Gives (content : Except Refusal Bytes) (descriptor : Descriptor) : Prop :=
  ∃ text entries, content = .ok (Utf8.encode text) ∧
    Json.parse (Text.unifyLineEnds text.toList) = .ok (.object entries) ∧
    check (.object entries) = .valid descriptor

/-- What is wrong with a file that holds no descriptor, as it is reported. -/
inductive Unusable : Except Refusal Bytes → String → Prop where
  | unreadable (error : SystemError) : Unusable (.error (.failed error)) error.message
  | notText {bytes : Bytes} {fault : Utf8.Fault} (broken : Utf8.decode bytes = .error fault) :
      Unusable (.ok bytes) fault.message
  | notJson {text : String} {complaint : Json.Complaint} {index : Nat}
      (refused : Json.parse (Text.unifyLineEnds text.toList) =
        .error (.malformed complaint index)) :
      Unusable (.ok (Utf8.encode text))
        (Json.complaintMessage (Text.unifyLineEnds text.toList) complaint index)
  | notObject {text : String} {value : Json}
      (parsed : Json.parse (Text.unifyLineEnds text.toList) = .ok value)
      (other : ∀ entries, value ≠ .object entries) :
      Unusable (.ok (Utf8.encode text)) "expected a JSON object"
  | invalid {text : String} {entries : List (String × Json)} {faults : Nat}
      (parsed : Json.parse (Text.unifyLineEnds text.toList) = .ok (.object entries))
      (checked : check (.object entries) = .invalid faults) :
      Unusable (.ok (Utf8.encode text)) (Checked.summary faults "PackageDescriptor")

/-- What is wrong with a file and not reported. -/
inductive Escapes : Except Refusal Bytes → Defect → Prop where
  | nulInPath : Escapes (.error .nulCharacter) .nulCharacter
  | overlong {text : String} {digits : Nat}
      (refused : Json.parse (Text.unifyLineEnds text.toList) = .error (.numeralTooLong digits)) :
      Escapes (.ok (Utf8.encode text)) (.numeralTooLong digits)

section Single

variable {path : Path} {content : Except Refusal Bytes}

theorem ofFile_eq_ok_iff_gives {descriptor : Descriptor} :
    ofFile path content = .ok descriptor ↔ Gives content descriptor :=
  ofFile_eq_ok_iff

theorem ofFile_of_text (text : String) :
    ofFile path (.ok (Utf8.encode text)) = ofChars path (Text.unifyLineEnds text.toList) := by
  have decoded : Utf8.decode (Utf8.encode text) = .ok text := Utf8.decode_eq_ok_iff.2 rfl
  rw [ofFile, decoded]

theorem ofJson_of_invalid {entries : List (String × Json)} {faults : Nat}
    (checked : check (.object entries) = .invalid faults) :
    ofJson path (.object entries) =
      .error (unusable path (Checked.summary faults "PackageDescriptor")) := by
  unfold ofJson
  split
  next entries same =>
    cases same
    rw [checked]
  next other => exact absurd rfl (other entries)

theorem ofFile_of_unusable {reason : String} (wrong : Unusable content reason) :
    ofFile path content = .error (unusable path reason) := by
  cases wrong with
  | unreadable error => rfl
  | notText broken => rw [ofFile, broken]
  | notJson refused => rw [ofFile_of_text, ofChars, refused]
  | @notObject text value parsed other =>
    rw [ofFile_of_text, ofChars, parsed]
    cases value with
    | object entries => exact absurd rfl (other entries)
    | _ => rfl
  | invalid parsed checked =>
    rw [ofFile_of_text, ofChars, parsed]
    exact ofJson_of_invalid checked

theorem ofFile_of_escapes {defect : Defect} (wrong : Escapes content defect) :
    ofFile path content = .error (.unreported defect) := by
  cases wrong with
  | nulInPath => rfl
  | overlong refused => rw [ofFile_of_text, ofChars, refused]

theorem gives_or_wrong (content : Except Refusal Bytes) :
    (∃ descriptor, Gives content descriptor) ∨ (∃ reason, Unusable content reason) ∨
      ∃ defect, Escapes content defect := by
  match content with
  | .error (.failed error) => exact .inr (.inl ⟨_, .unreadable error⟩)
  | .error .nulCharacter => exact .inr (.inr ⟨_, .nulInPath⟩)
  | .ok bytes =>
    cases decoded : Utf8.decode bytes with
    | error fault => exact .inr (.inl ⟨_, .notText decoded⟩)
    | ok text =>
      rw [Utf8.decode_eq_ok_iff.1 decoded]
      match parsed : Json.parse (Text.unifyLineEnds text.toList) with
      | .error (.malformed complaint index) => exact .inr (.inl ⟨_, .notJson parsed⟩)
      | .error (.numeralTooLong digits) => exact .inr (.inr ⟨_, .overlong parsed⟩)
      | .ok value =>
        by_cases object : ∃ entries, value = .object entries
        · obtain ⟨entries, rfl⟩ := object
          cases checked : check (.object entries) with
          | valid descriptor => exact .inl ⟨descriptor, text, entries, rfl, parsed, checked⟩
          | invalid faults => exact .inr (.inl ⟨_, .invalid parsed checked⟩)
        · exact .inr (.inl ⟨_, .notObject parsed fun entries same => object ⟨entries, same⟩⟩)

theorem ofFile_eq_error_iff {failure : Failure} :
    ofFile path content = .error failure ↔
      (∃ reason, Unusable content reason ∧ failure = unusable path reason) ∨
        ∃ defect, Escapes content defect ∧ failure = .unreported defect := by
  constructor
  · intro failed
    rcases gives_or_wrong content with ⟨descriptor, gives⟩ | ⟨reason, wrong⟩ | ⟨defect, wrong⟩
    · cases failed.symm.trans (ofFile_eq_ok_iff_gives.2 gives)
    · exact .inl ⟨reason, wrong, Except.error.inj (failed.symm.trans (ofFile_of_unusable wrong))⟩
    · exact .inr ⟨defect, wrong, Except.error.inj (failed.symm.trans (ofFile_of_escapes wrong))⟩
  · rintro (⟨reason, wrong, rfl⟩ | ⟨defect, wrong, rfl⟩)
    · exact ofFile_of_unusable wrong
    · exact ofFile_of_escapes wrong

end Single

/-- The descriptors that files of a home hold, one for each name. -/
def GivesAll (read : Path → Except Refusal Bytes) (root : Path) :
    List String → List Descriptor → Prop :=
  List.Forall₂ fun name descriptor => Gives (read (root.join (.ofText name))) descriptor

/-- What loading comes to. Nothing is asked of what stands behind the file that decides, and of the
files in front of it no more than that they hold descriptors, of whichever ids. -/
inductive Loads (read : Path → Except Refusal Bytes) (root : Path) (names : List String) :
    Except Failure (List Descriptor) → Prop where
  | all {loaded : List Descriptor} (gives : GivesAll read root (descriptorFiles names) loaded) :
      Loads read root names
        (.ok (loaded.eraseDupsBy fun later earlier => later.id == earlier.id))
  | reported {before after : List String} {name reason : String} {loaded : List Descriptor}
      (split : descriptorFiles names = before ++ name :: after)
      (gives : GivesAll read root before loaded)
      (wrong : Unusable (read (root.join (.ofText name))) reason) :
      Loads read root names
        (.error (.reported (.descriptorUnusable (root.join (.ofText name)).text reason)))
  | escaped {before after : List String} {name : String} {defect : Defect}
      {loaded : List Descriptor} (split : descriptorFiles names = before ++ name :: after)
      (gives : GivesAll read root before loaded)
      (wrong : Escapes (read (root.join (.ofText name))) defect) :
      Loads read root names (.error (.unreported defect))

section Several

variable {read : Path → Except Refusal Bytes} {root : Path} {names : List String}

theorem map_inFile_iff {loaded : List Descriptor} :
    names.map (inFile read root) = loaded.map .ok ↔ GivesAll read root names loaded := by
  rw [← List.forall₂_eq_eq_eq, List.forall₂_map_left_iff, List.forall₂_map_right_iff]
  simp only [inFile, ofFile_eq_ok_iff_gives, GivesAll]

theorem loadFrom_eq_error_iff {failure : Failure} :
    loadFrom read root names = .error failure ↔
      ∃ before name after loaded, descriptorFiles names = before ++ name :: after ∧
        GivesAll read root before loaded ∧ inFile read root name = .error failure := by
  have load : loadFrom read root names =
      (do return firsts (← (descriptorFiles names).mapM (inFile read root))) := rfl
  simp only [← map_inFile_iff, ← mapM_eq_error_iff]
  rw [load]
  cases (descriptorFiles names).mapM (inFile read root) <;>
    simp [bind, Except.bind, pure, Except.pure]

theorem loads_loadFrom (read : Path → Except Refusal Bytes) (root : Path) (names : List String) :
    Loads read root names (loadFrom read root names) := by
  cases load : loadFrom read root names with
  | ok descriptors =>
    obtain ⟨loaded, mapped, rfl⟩ := loadFrom_eq_ok_iff.1 load
    rw [firsts_eq_eraseDupsBy]
    exact .all (map_inFile_iff.1 mapped)
  | error failure =>
    obtain ⟨before, name, after, loaded, split, gives, failed⟩ := loadFrom_eq_error_iff.1 load
    rcases ofFile_eq_error_iff.1 failed with ⟨reason, wrong, rfl⟩ | ⟨defect, wrong, rfl⟩
    · exact .reported split gives wrong
    · exact .escaped split gives wrong

theorem loadFrom_of_loads {outcome : Except Failure (List Descriptor)}
    (loads : Loads read root names outcome) : loadFrom read root names = outcome := by
  cases loads with
  | all gives =>
    rw [← firsts_eq_eraseDupsBy]
    exact loadFrom_eq_ok_iff.2 ⟨_, map_inFile_iff.2 gives, rfl⟩
  | reported split gives wrong =>
    exact loadFrom_eq_error_iff.2 ⟨_, _, _, _, split, gives, ofFile_of_unusable wrong⟩
  | escaped split gives wrong =>
    exact loadFrom_eq_error_iff.2 ⟨_, _, _, _, split, gives, ofFile_of_escapes wrong⟩

end Several

/-- In a tree of files, what is not reported is a null character in a path or an integer of too many
digits, which stand in the file. -/
theorem escapes_of_read {tree : FileTree} {cwd path : Path} {defect : Defect}
    (wrong : Escapes (tree.read cwd path) defect) :
    (defect = .nulCharacter ∧ path.hasNul = true) ∨
      ∃ text digits, tree.read cwd path = .ok (Utf8.encode text) ∧
        defect = .numeralTooLong digits ∧
        Json.HasOverlong (Text.unifyLineEnds text.toList) digits := by
  generalize same : tree.read cwd path = content at wrong
  cases wrong with
  | nulInPath => exact .inl ⟨rfl, FileTree.read_eq_nulCharacter_iff.1 same⟩
  | overlong refused => exact .inr ⟨_, _, rfl, rfl, Json.hasOverlong_of_parse refused⟩

theorem exists_escapes_of_written {separators : Json.Separators} (plain : separators.IsPlain)
    {value : Json} (whole : value.Whole) (long : ¬value.Lossless) :
    ∃ digits, Escapes (.ok (Utf8.encode (value.render separators))) (.numeralTooLong digits) := by
  obtain lossless | ⟨digits, refused⟩ := Json.lossless_or_parse_write plain whole
  · exact absurd lossless long
  · refine ⟨digits, .overlong ?_⟩
    rw [Json.render, String.toList_ofList, Json.unifyLineEnds_write plain whole]
    exact refused

/-- Loading gives, in the order of the names, the first descriptor of each id, if each of the files
that should hold a descriptor does. Else the first of them that does not is reported, with its path
and what is wrong with it, unless that is one of the two faults that are not reported. These are a
null character in its path and an integer in it of more digits than are read; among files that are
written as JSON every such integer is one. Nesting beyond the recursion limit of a reader is outside
the model, where a file may be nested as deep as it is long. -/
theorem loads_or_reports_unless_escaped (read : Path → Except Refusal Bytes) (root : Path)
    (names : List String) :
    (∀ outcome, loadFrom read root names = outcome ↔ Loads read root names outcome) ∧
    (∀ (tree : FileTree) (cwd : Path) (defect : Defect),
      loadFrom (tree.read cwd) root names = .error (.unreported defect) →
        ∃ name ∈ names, hasEnding ".json" name = true ∧
          ((defect = .nulCharacter ∧ (root.join (.ofText name)).hasNul = true) ∨
            ∃ text digits, tree.read cwd (root.join (.ofText name)) = .ok (Utf8.encode text) ∧
              defect = .numeralTooLong digits ∧
              Json.HasOverlong (Text.unifyLineEnds text.toList) digits)) ∧
    (∀ (tree : FileTree) (cwd path : Path),
      tree.read cwd path = .error .nulCharacter ↔ path.hasNul = true) ∧
    ∀ separators value, Json.Separators.IsPlain separators → Json.Whole value →
      ¬Json.Lossless value →
        ∃ digits, Escapes (.ok (Utf8.encode (value.render separators)))
          (.numeralTooLong digits) := by
  refine ⟨fun outcome => ⟨?_, loadFrom_of_loads⟩, fun tree cwd defect failed => ?_,
    fun tree cwd path => FileTree.read_eq_nulCharacter_iff,
    fun separators value plain whole => exists_escapes_of_written plain whole⟩
  · rintro rfl
    exact loads_loadFrom read root names
  · have loads := loads_loadFrom (tree.read cwd) root names
    rw [failed] at loads
    cases loads with
    | @escaped before after name _ loaded split gives wrong =>
      have file : name ∈ descriptorFiles names := split ▸ List.mem_append_cons_self
      obtain ⟨listed, ending⟩ := mem_descriptorFiles_iff.1 file
      exact ⟨name, listed, ending, escapes_of_read wrong⟩

def oneAmongLists (path : Path) : Except Refusal Bytes :=
  if path = .ofText "/w/a.json" then .ok (Utf8.encode "\x7b\"ID\":\"//a\"\x7d")
  else .ok (Utf8.encode "[]")

/-- The first file loads, also when it is named again, and the first of the others is reported. A
name with a null character and a written integer of 4301 digits are not. -/
theorem loads_or_reports_unless_escaped_again_and_list :
    loadFrom oneAmongLists (.ofText "/w") ["a.json", "b.go", "/w//a.json", "b.json", "c.json"] =
      .error (.reported (.descriptorUnusable "/w/b.json" "expected a JSON object")) ∧
    (∃ name ∈ ["a\x00.json"], hasEnding ".json" name = true ∧
      (Path.join (.ofText "/w") (.ofText name)).hasNul = true) ∧
    ∃ digits, Escapes (.ok (Utf8.encode (Json.render Json.spaced (.int (10 ^ 4300 : Nat)))))
      (.numeralTooLong digits) := by
  have gives : Gives (.ok (Utf8.encode "\x7b\"ID\":\"//a\"\x7d")) { id := "//a" } :=
    ⟨_, [("ID", .text "//a")], rfl, by cbv, rfl⟩
  have parsed : Json.parse (Text.unifyLineEnds "[]".toList) = .ok (.array []) := by cbv
  have list : Unusable (.ok (Utf8.encode "[]")) "expected a JSON object" := by
    refine .notObject parsed ?_
    intro entries wrong
    cases wrong
  have listed : descriptorFiles ["a.json", "b.go", "/w//a.json", "b.json", "c.json"] =
      ["a.json", "/w//a.json"] ++ "b.json" :: ["c.json"] := by
    decide +kernel
  obtain ⟨outcome, -⟩ := loads_or_reports_unless_escaped oneAmongLists (.ofText "/w")
    ["a.json", "b.go", "/w//a.json", "b.json", "c.json"]
  obtain ⟨-, defects, -, written⟩ := loads_or_reports_unless_escaped
    ((FileTree.directory []).read {}) (.ofText "/w") ["a\x00.json"]
  have loads : Loads oneAmongLists (.ofText "/w") _ _ :=
    .reported listed (.cons gives (.cons gives .nil)) list
  refine ⟨(outcome _).2 loads, ?_, ?_⟩
  · obtain ⟨name, member, ending, ⟨-, nul⟩ | ⟨_, _, _, wrong, -⟩⟩ :=
      defects (.directory []) {} .nulCharacter (by decide +kernel)
    · exact ⟨name, member, ending, nul⟩
    · cases wrong
  · exact written _ _ Json.isPlain_spaced (.int _) (Json.not_lossless_pow (Nat.le_refl 4300))

/-- A null character in a name and an integer of 4301 digits in a file end loading without a
report. -/
theorem not_reported_nul_name_or_long_integer :
    loadFrom ((FileTree.directory []).read {}) (.ofText "/w") ["a\x00.json"] =
      .error (.unreported .nulCharacter) ∧
    loadFrom
      (fun _ => .ok (Utf8.encode (Json.render Json.spaced
        (.object [("ID", .int (10 ^ 4300 : Nat))])))) (.ofText "/w") ["a.json"] =
      .error (.unreported (.numeralTooLong 4301)) := by
  constructor
  · decide +kernel
  · have whole : Json.Whole (.object [("ID", .int (10 ^ 4300 : Nat))]) :=
      .object (List.pairwise_singleton _ _) (List.forall_mem_singleton.2 (.int _))
    have refused := Json.parse_write_pow Json.isPlain_spaced "ID" (Nat.le_refl 4300)
    rw [← Json.unifyLineEnds_write Json.isPlain_spaced whole] at refused
    have written : (Json.render Json.spaced (.object [("ID", .int (10 ^ 4300 : Nat))])).toList =
        Json.write Json.spaced (.object [("ID", .int (10 ^ 4300 : Nat))]) := String.toList_ofList
    rw [← written] at refused
    have names : descriptorFiles ["a.json"] = [] ++ "a.json" :: [] := by decide +kernel
    exact loadFrom_eq_error_iff.2
      ⟨[], "a.json", [], [], names, .nil, ofFile_of_escapes (.overlong refused)⟩

end Descriptor

end GoMetadata
