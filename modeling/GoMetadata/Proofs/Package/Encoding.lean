import GoMetadata.Proofs.Json.Ascii
import GoMetadata.Proofs.Package.Loading
import GoMetadata.Proofs.Package.Payload
import GoMetadata.Protocol

/-!
Responses and descriptors come back from their text. The text of a response is read and checked to
the response, and a descriptor that was loaded from a file is loaded again from a file that it is
written to.
-/

namespace GoMetadata

namespace Response

structure Storable (response : Response) : Prop where
  sizes : ∀ sizes, response.sizes = some sizes → (sizes.map Prod.fst).Nodup ∧
    ∀ entry ∈ sizes, entry.2.natAbs < 10 ^ Numeral.maxDigits
  packages : ∀ package ∈ response.packages, package.Storable

variable (response : Response)

def sizesField : Json.Field :=
  ⟨"Sizes", sizesJson response.sizes, false⟩

def packagesField : Json.Field :=
  ⟨"Packages", .array (response.packages.map Descriptor.toJson), false⟩

/-- The fields of a response. Only the roots may be left out. -/
def fields : List Json.Field :=
  [response.sizesField, .ofTexts "Roots" response.roots, response.packagesField]

def inFull : List (String × Json) :=
  response.fields.map Json.Field.entry

def keys : List String :=
  ["Sizes", "Roots", "Packages"]

theorem nodup_fields : (response.fields.map Json.Field.key).Nodup := by
  have distinct : keys.Nodup := by decide
  exact distinct

theorem toJson_eq : response.toJson = .object (Json.Field.shown response.fields) := by
  simp only [toJson, fields, Json.Field.shown_cons, Json.Field.shown_nil, sizesField, packagesField,
    Json.Field.ofTexts, Json.Field.entry, List.append_assoc, List.append_nil, decide_eq_true_eq,
    Bool.false_eq_true, if_false]

theorem check_sizesJson (sizes : Option (List (String × Int))) :
    Checked.orNull none (fun value => some <$> Checked.dictionary Checked.integer value)
      (sizesJson sizes) = .valid sizes := by
  cases sizes with
  | none => rfl
  | some sizes =>
    have checked : Checked.entries Checked.integer
        (sizes.map fun entry => (entry.1, .int entry.2)) = .valid sizes :=
      Checked.entries_map fun _ _ => rfl
    exact congrArg (some <$> ·) checked

theorem field_sizes : Checked.field ["Sizes", "sizes"] (.valid none)
    (Checked.orNull none fun value => some <$> Checked.dictionary Checked.integer value)
    (Json.Field.shown response.fields) = .valid response.sizes := by
  have member : response.sizesField ∈ response.fields := List.mem_cons_self
  have unknown : "sizes" ∉ keys := by decide
  exact Json.Field.check_shown response.nodup_fields member unknown nofun
    (check_sizesJson response.sizes)

theorem field_roots : Checked.field ["Roots", "roots"] (.valid [])
    (Checked.orNull [] (Checked.list Checked.string)) (Json.Field.shown response.fields) =
      .valid response.roots := by
  have member : .ofTexts "Roots" response.roots ∈ response.fields := by simp [fields]
  have unknown : "roots" ∉ keys := by decide
  exact Json.Field.check_shown_texts response.nodup_fields member unknown

theorem field_packages : Checked.field ["Packages", "packages"] (.valid [])
    (Checked.orNull [] (Checked.list Descriptor.check)) (Json.Field.shown response.fields) =
      .valid response.packages := by
  have member : response.packagesField ∈ response.fields := by simp [fields]
  have unknown : "packages" ∉ keys := by decide
  have checked : Checked.items Descriptor.check (response.packages.map Descriptor.toJson) =
      .valid response.packages :=
    Checked.items_map fun package _ => package.check_toJson
  exact Json.Field.check_shown response.nodup_fields member unknown nofun checked

theorem check_toJson : check response.toJson = .valid response := by
  rw [toJson_eq, check, field_sizes, field_roots, field_packages]
  rfl

theorem mem_shown_fields_iff {entry : String × Json} :
    entry ∈ Json.Field.shown response.fields ↔
      entry ∈ response.inFull ∧ (entry.1 = "Roots" → response.roots ≠ []) := by
  have omitted : ∀ field ∈ response.fields,
      field.omitted = true ↔ field.entry.1 = "Roots" ∧ response.roots = [] := by
    simp [fields, Json.Field.entry, sizesField, packagesField, Json.Field.ofTexts]
  rw [← not_and]
  exact Json.Field.mem_shown_iff_not (fun entry => entry.1 = "Roots" ∧ response.roots = []) omitted

variable {response}

theorem lossless_toJson (storable : response.Storable) : response.toJson.Lossless := by
  have sizes : response.sizesField.value.Lossless := by
    cases known : response.sizes with
    | none =>
      rw [sizesField, known]
      exact .null
    | some sizes =>
      obtain ⟨distinct, small⟩ := storable.sizes sizes known
      rw [sizesField, known]
      refine .object ?_ ?_
      · rw [List.map_map]
        exact distinct
      · intro entry member
        obtain ⟨size, listed, rfl⟩ := List.mem_map.1 member
        exact .int (small size listed)
  have packages : response.packagesField.value.Lossless := by
    refine .array ?_
    intro item member
    obtain ⟨package, listed, rfl⟩ := List.mem_map.1 member
    exact Descriptor.lossless_toJson (storable.packages package listed)
  have all : ∀ field ∈ response.fields, field.value.Lossless := by
    simp only [fields, List.forall_mem_cons]
    exact ⟨sizes, Descriptor.lossless_texts _, packages, nofun⟩
  rw [toJson_eq]
  refine .object (Json.Field.nodup_shown response.nodup_fields) ?_
  intro entry member
  obtain ⟨field, listed, -, rfl⟩ := Json.Field.mem_shown_iff.1 member
  exact all field listed

theorem exists_encode_eq (storable : response.Storable) :
    ∃ text value, response.encode = .ok text ∧ Json.parse text.toList = .ok value ∧
      check value = .valid response := by
  have lossless := lossless_toJson storable
  refine ⟨response.toJson.render Json.compact, response.toJson, ?_, ?_, response.check_toJson⟩
  · rw [encode, encodeResponse, if_pos (Json.allFinite_of_lossless lossless)]
  · rw [Json.render, String.toList_ofList]
    exact Json.parse_write Json.isPlain_compact lossless

end Response

/-- A descriptor that was loaded is loaded again from a file that it is written to. -/
theorem Descriptor.ofFile_toJson {path : Path} {content : Except Refusal Bytes}
    {descriptor : Descriptor} {separators : Json.Separators} (plain : separators.IsPlain)
    (loaded : ofFile path content = .ok descriptor) (other : Path) :
    ofFile other (.ok (Utf8.encode (descriptor.toJson.render separators))) = .ok descriptor := by
  obtain ⟨text, entries, -, parsed, checked⟩ := ofFile_eq_ok_iff.1 loaded
  have lossless := lossless_toJson (storable_of_check (Json.regular_of_parse parsed) checked)
  refine ofFile_eq_ok_iff.2 ⟨_, Json.Field.shown descriptor.fields, rfl, ?_, ?_⟩
  · rw [Json.render, String.toList_ofList,
      Json.unifyLineEnds_write plain (Json.whole_of_lossless lossless),
      Json.parse_write plain lossless, toJson_eq]
  · rw [← toJson_eq]
    exact descriptor.check_toJson

/-- Nothing is lost where a response or a descriptor is written, although fields with their default
are left out. -/
theorem Response.encode_and_toJson_read_back :
    (∀ response : Response, response.Storable →
      ∃ text value, response.encode = .ok text ∧ Json.parse text.toList = .ok value ∧
        check value = .valid response) ∧
    (∀ response : Response, ∃ entries, response.toJson = .object entries ∧
      ∀ entry, entry ∈ entries ↔
        entry ∈ response.inFull ∧ (entry.1 = "Roots" → response.roots ≠ [])) ∧
    (∀ descriptor : Descriptor, Descriptor.check descriptor.toJson = .valid descriptor) ∧
    (∀ error : PackageError, error.toJson = .object
      [("Pos", .text error.position), ("Msg", .text error.message), ("Kind", .int error.kind)]) ∧
    (∀ descriptor : Descriptor, ∃ entries, descriptor.toJson = .object entries ∧
      ∀ entry, entry ∈ entries ↔ entry ∈ descriptor.inFull ∧
        (entry.1 ≠ "ID" → entry ∉ Descriptor.inFull { id := descriptor.id })) ∧
    ∀ path content descriptor separators other, Json.Separators.IsPlain separators →
      Descriptor.ofFile path content = .ok descriptor →
      Descriptor.ofFile other (.ok (Utf8.encode (descriptor.toJson.render separators))) =
        .ok descriptor := by
  refine ⟨?_, ?_, ?_, ?_, ?_, ?_⟩
  · intro response storable
    exact exists_encode_eq storable
  · intro response
    exact ⟨_, response.toJson_eq, fun _ => response.mem_shown_fields_iff⟩
  · intro descriptor
    exact descriptor.check_toJson
  · intro error
    rfl
  · intro descriptor
    exact ⟨_, descriptor.toJson_eq, fun _ => descriptor.mem_shown_fields_iff⟩
  · intro path content descriptor separators other plain loaded
    exact Descriptor.ofFile_toJson plain loaded other

/-- An error of which everything has its default comes back, and so does a descriptor of which the
file says one thing in lower case and another by null. -/
theorem Response.encode_and_toJson_read_back_default_error :
    let descriptor : Descriptor := { id := "//a", errors := [{}], imports := [("fmt", "")] }
    let response : Response :=
      { sizes := some [("WordSize", 8), ("MaxAlign", -1)], roots := ["//a"],
        packages := [descriptor] }
    let text := "\x7b\"id\":\"//a\",\"Errors\":[\x7b\x7d]," ++
      "\"Imports\":\x7b\"fmt\":\"\"\x7d,\"GoFiles\":null\x7d"
    (response.Storable ∧
      ∃ text value, response.encode = .ok text ∧ Json.parse text.toList = .ok value ∧
        check value = .valid response) ∧
    (Json.spaced.IsPlain ∧ Descriptor.ofFile {} (.ok (Utf8.encode text)) = .ok descriptor) ∧
    Descriptor.ofFile {} (.ok (Utf8.encode (descriptor.toJson.render Json.spaced))) =
      .ok descriptor := by
  intro descriptor response text
  obtain ⟨encoded, -, -, -, -, files⟩ := encode_and_toJson_read_back
  have storable : response.Storable := by
    constructor
    · intro sizes same
      cases same
      refine ⟨by decide, ?_⟩
      intro entry member
      apply Numeral.lt_pow_maxDigits
      rcases List.mem_pair.1 member with rfl | rfl <;> decide
    · intro package member
      rw [List.mem_singleton.1 member]
      constructor
      · intro error listed
        rw [List.mem_singleton.1 listed]
        exact Numeral.lt_pow_maxDigits (by decide)
      · decide
  have loaded : Descriptor.ofFile {} (.ok (Utf8.encode text)) = .ok descriptor := by
    let found : List (String × Json) := [("id", .text "//a"), ("Errors", .array [.object []]),
      ("Imports", .object [("fmt", .text "")]), ("GoFiles", .null)]
    have written : Text.unifyLineEnds text.toList = Json.write Json.compact (.object found) := by
      decide +kernel
    have errors : (Json.array [.object []]).Lossless :=
      .array (List.forall_mem_singleton.2 (.object List.nodup_nil nofun))
    have imports : (Json.object [("fmt", .text "")]).Lossless :=
      .object (by decide) (List.forall_mem_singleton.2 (.text _))
    have lossless : (Json.object found).Lossless := by
      refine .object (by decide) ?_
      simp only [found, List.forall_mem_cons]
      exact ⟨.text _, errors, imports, .null, nofun⟩
    refine Descriptor.ofFile_eq_ok_iff.2 ⟨text, found, rfl, ?_, rfl⟩
    rw [written]
    exact Json.parse_write Json.isPlain_compact lossless
  exact ⟨⟨storable, encoded response storable⟩, ⟨Json.isPlain_spaced, loaded⟩,
    files _ _ _ _ _ Json.isPlain_spaced loaded⟩

end GoMetadata
