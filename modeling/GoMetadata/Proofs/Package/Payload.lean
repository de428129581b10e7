import GoMetadata.Package
import GoMetadata.Proofs.Json.Checking

/-!
Descriptors and their JSON. No descriptor is changed by being written and checked, although the
fields with their default are left out, and a descriptor that was found in a text says no number and
no key that could not be written.
-/

namespace GoMetadata

namespace Descriptor

def idField (descriptor : Descriptor) : Json.Field :=
  ⟨"ID", .text descriptor.id, false⟩

def errorsField (descriptor : Descriptor) : Json.Field :=
  ⟨"Errors", .array (descriptor.errors.map PackageError.toJson), descriptor.errors = []⟩

def importsField (descriptor : Descriptor) : Json.Field :=
  ⟨"Imports", .object (descriptor.imports.map fun entry => (entry.1, .text entry.2)),
    descriptor.imports = []⟩

def standardField (descriptor : Descriptor) : Json.Field :=
  ⟨"Standard", .bool descriptor.standard, !descriptor.standard⟩

def fields (descriptor : Descriptor) : List Json.Field :=
  [descriptor.idField,
    .ofText "Name" descriptor.name,
    .ofText "PkgPath" descriptor.packagePath,
    descriptor.errorsField,
    .ofTexts "GoFiles" descriptor.goFiles,
    .ofTexts "CompiledGoFiles" descriptor.compiledGoFiles,
    .ofTexts "OtherFiles" descriptor.otherFiles,
    .ofTexts "EmbedPatterns" descriptor.embedPatterns,
    .ofTexts "EmbedFiles" descriptor.embedFiles,
    .ofTexts "IgnoredFiles" descriptor.ignoredFiles,
    .ofText "ExportFile" descriptor.exportFile,
    descriptor.importsField,
    descriptor.standardField]

def keys : List String :=
  ["ID", "Name", "PkgPath", "Errors", "GoFiles", "CompiledGoFiles", "OtherFiles", "EmbedPatterns",
    "EmbedFiles", "IgnoredFiles", "ExportFile", "Imports", "Standard"]

variable (descriptor : Descriptor)

theorem map_key_fields : descriptor.fields.map Json.Field.key = keys :=
  rfl

theorem nodup_fields : (descriptor.fields.map Json.Field.key).Nodup := by
  rw [map_key_fields]
  decide

theorem toJson_eq : descriptor.toJson = .object (Json.Field.shown descriptor.fields) := by
  have standard : (if descriptor.standard then [("Standard", Json.bool true)] else []) =
      if (!descriptor.standard) = true then []
      else [("Standard", Json.bool descriptor.standard)] := by
    cases descriptor.standard <;> rfl
  simp only [toJson, fields, Json.Field.shown_cons, Json.Field.shown_nil, standard, idField,
    errorsField, importsField, standardField, textEntry, textsEntry, Json.Field.ofText,
    Json.Field.ofTexts, Json.Field.entry, List.append_assoc, List.append_nil, decide_eq_true_eq,
    Bool.false_eq_true, if_false]

/-- All fields of a descriptor with their values, also those with their default. -/
def inFull : List (String × Json) :=
  descriptor.fields.map Json.Field.entry

/-- Left out is what would be said of a descriptor of which nothing but the id is known. -/
theorem omitted_iff : ∀ field ∈ descriptor.fields,
    field.omitted = true ↔
      field.entry.1 ≠ "ID" ∧ field.entry ∈ inFull { id := descriptor.id } := by
  simp [fields, inFull, Json.Field.entry, idField, errorsField, importsField, standardField,
    Json.Field.ofText, Json.Field.ofTexts]

theorem mem_shown_fields_iff {entry : String × Json} :
    entry ∈ Json.Field.shown descriptor.fields ↔
      entry ∈ descriptor.inFull ∧ (entry.1 ≠ "ID" → entry ∉ inFull { id := descriptor.id }) := by
  rw [← not_and]
  exact Json.Field.mem_shown_iff_not
    (fun entry => entry.1 ≠ "ID" ∧ entry ∈ inFull { id := descriptor.id }) descriptor.omitted_iff

section Check

variable {descriptor}

theorem field_text {key value : String} (other : String)
    (member : .ofText key value ∈ descriptor.fields) (unknown : other ∉ keys) :
    Checked.field [key, other] (.valid "") Checked.string (Json.Field.shown descriptor.fields) =
      .valid value :=
  Json.Field.check_shown_default descriptor.nodup_fields member unknown of_decide_eq_true rfl

theorem field_texts {key : String} {values : List String} (other : String)
    (member : .ofTexts key values ∈ descriptor.fields) (unknown : other ∉ keys) :
    Checked.field [key, other] (.valid []) texts (Json.Field.shown descriptor.fields) =
      .valid values :=
  Json.Field.check_shown_texts descriptor.nodup_fields member unknown

end Check

theorem field_id : Checked.field ["ID", "id"] Checked.fault Checked.string
    (Json.Field.shown descriptor.fields) = .valid descriptor.id := by
  have member : descriptor.idField ∈ descriptor.fields := List.mem_cons_self
  have unknown : "id" ∉ keys := by decide
  exact Json.Field.check_shown descriptor.nodup_fields member unknown nofun rfl

theorem field_errors : Checked.field ["Errors", "errors"] (.valid [])
    (Checked.orNull [] (Checked.list PackageError.check)) (Json.Field.shown descriptor.fields) =
      .valid descriptor.errors := by
  have member : descriptor.errorsField ∈ descriptor.fields := by simp [fields]
  have unknown : "errors" ∉ keys := by decide
  have checked : Checked.items PackageError.check (descriptor.errors.map PackageError.toJson) =
      .valid descriptor.errors :=
    Checked.items_map fun _ _ => rfl
  exact Json.Field.check_shown_default descriptor.nodup_fields member unknown of_decide_eq_true
    checked

theorem field_imports : Checked.field ["Imports", "imports"] (.valid [])
    (Checked.orNull [] (Checked.dictionary Checked.string)) (Json.Field.shown descriptor.fields) =
      .valid descriptor.imports := by
  have member : descriptor.importsField ∈ descriptor.fields := by simp [fields]
  have unknown : "imports" ∉ keys := by decide
  have checked : Checked.entries Checked.string
      (descriptor.imports.map fun entry => (entry.1, .text entry.2)) = .valid descriptor.imports :=
    Checked.entries_map fun _ _ => rfl
  exact Json.Field.check_shown_default descriptor.nodup_fields member unknown of_decide_eq_true
    checked

theorem field_standard : Checked.field ["Standard", "standard"] (.valid false) Checked.flag
    (Json.Field.shown descriptor.fields) = .valid descriptor.standard := by
  have member : descriptor.standardField ∈ descriptor.fields := by simp [fields]
  have unknown : "standard" ∉ keys := by decide
  exact Json.Field.check_shown_default descriptor.nodup_fields member unknown
    (Bool.not_eq_true' _).mp rfl

theorem check_toJson : check descriptor.toJson = .valid descriptor := by
  have name : .ofText "Name" descriptor.name ∈ descriptor.fields := by simp [fields]
  have path : .ofText "PkgPath" descriptor.packagePath ∈ descriptor.fields := by simp [fields]
  have exported : .ofText "ExportFile" descriptor.exportFile ∈ descriptor.fields := by
    simp [fields]
  have go : .ofTexts "GoFiles" descriptor.goFiles ∈ descriptor.fields := by simp [fields]
  have compiled : .ofTexts "CompiledGoFiles" descriptor.compiledGoFiles ∈ descriptor.fields := by
    simp [fields]
  have others : .ofTexts "OtherFiles" descriptor.otherFiles ∈ descriptor.fields := by
    simp [fields]
  have patterns : .ofTexts "EmbedPatterns" descriptor.embedPatterns ∈ descriptor.fields := by
    simp [fields]
  have embedded : .ofTexts "EmbedFiles" descriptor.embedFiles ∈ descriptor.fields := by
    simp [fields]
  have ignored : .ofTexts "IgnoredFiles" descriptor.ignoredFiles ∈ descriptor.fields := by
    simp [fields]
  rw [toJson_eq, check, field_id, field_errors, field_imports, field_standard,
    field_text _ name (by decide), field_text _ path (by decide),
    field_text _ exported (by decide), field_texts _ go (by decide),
    field_texts _ compiled (by decide), field_texts _ others (by decide),
    field_texts _ patterns (by decide), field_texts _ embedded (by decide),
    field_texts _ ignored (by decide)]
  rfl

end Descriptor

def PackageError.Storable (error : PackageError) : Prop :=
  error.kind.natAbs < 10 ^ Numeral.maxDigits

/-- A descriptor that keeps everything where it is written: the kinds of its errors have no more
digits than are read, and no path is imported twice. -/
structure Descriptor.Storable (descriptor : Descriptor) : Prop where
  errors : ∀ error ∈ descriptor.errors, error.Storable
  imports : (descriptor.imports.map Prod.fst).Nodup

theorem PackageError.lossless_toJson {error : PackageError} (storable : error.Storable) :
    error.toJson.Lossless := by
  have distinct : ["Pos", "Msg", "Kind"].Nodup := by decide
  refine .object distinct ?_
  simp only [List.forall_mem_cons]
  exact ⟨.text _, .text _, .int storable, nofun⟩

namespace Descriptor

theorem lossless_texts (values : List String) : (Json.array (values.map .text)).Lossless := by
  refine .array ?_
  intro item member
  obtain ⟨value, -, rfl⟩ := List.mem_map.1 member
  exact .text value

theorem lossless_fields {descriptor : Descriptor} (storable : descriptor.Storable) :
    ∀ field ∈ descriptor.fields, field.value.Lossless := by
  have errors : descriptor.errorsField.value.Lossless := by
    refine .array ?_
    intro item member
    obtain ⟨error, listed, rfl⟩ := List.mem_map.1 member
    exact PackageError.lossless_toJson (storable.errors error listed)
  have imports : descriptor.importsField.value.Lossless := by
    refine .object ?_ ?_
    · rw [List.map_map]
      exact storable.imports
    · intro entry member
      obtain ⟨listed, -, rfl⟩ := List.mem_map.1 member
      exact .text listed.2
  simp only [fields, List.forall_mem_cons]
  exact ⟨.text _, .text _, .text _, errors, lossless_texts _, lossless_texts _, lossless_texts _,
    lossless_texts _, lossless_texts _, lossless_texts _, .text _, imports, .bool _, nofun⟩

theorem lossless_toJson {descriptor : Descriptor} (storable : descriptor.Storable) :
    descriptor.toJson.Lossless := by
  rw [toJson_eq]
  refine .object (Json.Field.nodup_shown descriptor.nodup_fields) ?_
  intro entry member
  obtain ⟨field, listed, -, rfl⟩ := Json.Field.mem_shown_iff.1 member
  exact lossless_fields storable field listed

end Descriptor

section Loaded

open Checked

theorem PackageError.storable_of_check {error : PackageError} {found : Json}
    (regular : found.Regular true) (checked : check found = .valid error) : error.Storable := by
  cases regular with
  | object distinct all =>
    obtain ⟨_, kind, toMessage, integral, rfl⟩ := seq_eq_valid_iff.1 checked
    obtain ⟨_, message, toPosition, -, rfl⟩ := seq_eq_valid_iff.1 toMessage
    obtain ⟨position, -, rfl⟩ := map_eq_valid_iff.1 toPosition
    rcases of_field integral with missing | ⟨entry, listed, found⟩
    · cases missing
      exact Numeral.lt_pow_maxDigits (by decide : 0 < 10)
    · exact natAbs_lt_of_integer (all entry listed) found
  | _ => cases checked

/-- The fields of a checked descriptor that its being storable depends on. -/
theorem Descriptor.fields_of_check {descriptor : Descriptor} {entries : List (String × Json)}
    (checked : check (.object entries) = .valid descriptor) :
    field ["Errors", "errors"] (valid []) (orNull [] (list PackageError.check)) entries =
        .valid descriptor.errors ∧
      field ["Imports", "imports"] (valid []) (orNull [] (dictionary string)) entries =
        .valid descriptor.imports := by
  -- The applications are undone from the last field to the first.
  obtain ⟨_, _, toImports, -, rfl⟩ := seq_eq_valid_iff.1 checked
  obtain ⟨_, _, toExport, imports, rfl⟩ := seq_eq_valid_iff.1 toImports
  obtain ⟨_, _, toIgnored, -, rfl⟩ := seq_eq_valid_iff.1 toExport
  obtain ⟨_, _, toEmbedded, -, rfl⟩ := seq_eq_valid_iff.1 toIgnored
  obtain ⟨_, _, toPatterns, -, rfl⟩ := seq_eq_valid_iff.1 toEmbedded
  obtain ⟨_, _, toOther, -, rfl⟩ := seq_eq_valid_iff.1 toPatterns
  obtain ⟨_, _, toCompiled, -, rfl⟩ := seq_eq_valid_iff.1 toOther
  obtain ⟨_, _, toGo, -, rfl⟩ := seq_eq_valid_iff.1 toCompiled
  obtain ⟨_, _, toErrors, -, rfl⟩ := seq_eq_valid_iff.1 toGo
  obtain ⟨_, _, toPath, errors, rfl⟩ := seq_eq_valid_iff.1 toErrors
  obtain ⟨_, _, toName, -, rfl⟩ := seq_eq_valid_iff.1 toPath
  obtain ⟨_, _, toId, -, rfl⟩ := seq_eq_valid_iff.1 toName
  obtain ⟨_, -, rfl⟩ := map_eq_valid_iff.1 toId
  exact ⟨errors, imports⟩

theorem Descriptor.storable_of_check {descriptor : Descriptor} {entries : List (String × Json)}
    (regular : (Json.object entries).Regular true)
    (checked : check (.object entries) = .valid descriptor) : descriptor.Storable := by
  obtain ⟨errors, imports⟩ := fields_of_check checked
  have all : ∀ entry ∈ entries, entry.2.Regular true := by
    cases regular with
    | object distinct all => exact all
  constructor
  · intro error member
    rcases of_field errors with missing | ⟨entry, listed, found⟩
    · rw [← valid.inj missing] at member
      cases member
    rcases of_orNull found with none | found
    · rw [none] at member
      cases member
    have regularEntry := all entry listed
    cases value : entry.2 with
    | array items =>
      rw [value] at found regularEntry
      obtain ⟨item, among, checkedItem⟩ := exists_item_of_items found error member
      cases regularEntry with
      | array regularItems =>
        exact PackageError.storable_of_check (regularItems item among) checkedItem
    | _ =>
      rw [value] at found
      cases found
  · rcases of_field imports with missing | ⟨entry, listed, found⟩
    · rw [← valid.inj missing]
      exact List.nodup_nil
    rcases of_orNull found with none | found
    · rw [none]
      exact List.nodup_nil
    have regularEntry := all entry listed
    cases value : entry.2 with
    | object others =>
      rw [value] at found regularEntry
      rw [map_fst_of_entries found]
      cases regularEntry with
      | object distinct regularOthers => exact distinct
    | _ =>
      rw [value] at found
      cases found

end Loaded

end GoMetadata
