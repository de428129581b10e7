import GoMetadata.Json.Basic
import GoMetadata.Proofs.Json.Regular

/-!
What it takes for a checked value to be valid, part by part, and which values are valid as they were
written. An integer that is found in a value that was read has no more digits than are read. A field
that is left out of an object is found missing under each of its names, and a check then takes the
default for it.
-/

namespace GoMetadata

namespace Checked

section Parts

variable {α β : Type}

theorem map_eq_valid_iff {f : α → β} {checked : Checked α} {result : β} :
    f <$> checked = valid result ↔ ∃ value, checked = valid value ∧ f value = result := by
  cases checked with
  | valid value =>
    constructor
    · intro same
      exact ⟨value, rfl, valid.inj same⟩
    · intro ⟨_, known, same⟩
      cases known
      exact congrArg valid same
  | invalid faults => exact ⟨nofun, nofun⟩

theorem seq_eq_valid_iff {function : Checked (α → β)} {checked : Checked α} {result : β} :
    function <*> checked = valid result ↔
      ∃ f value, function = valid f ∧ checked = valid value ∧ f value = result := by
  cases function with
  | valid f =>
    cases checked with
    | valid value =>
      constructor
      · intro same
        exact ⟨f, value, rfl, rfl, valid.inj same⟩
      · intro ⟨_, _, function, argument, same⟩
        cases function
        cases argument
        exact congrArg valid same
    | invalid faults => exact ⟨nofun, nofun⟩
  | invalid faults => cases checked <;> exact ⟨nofun, nofun⟩

variable {check : Json → Checked α}

theorem of_orNull {empty result : α} {value : Json}
    (checked : orNull empty check value = valid result) :
    result = empty ∨ check value = valid result := by
  unfold orNull at checked
  split at checked
  · exact .inl (valid.inj checked).symm
  · exact .inr checked

theorem of_field {names : List String} {missing : Checked α} {found : List (String × Json)}
    {result : α} (checked : field names missing check found = valid result) :
    missing = valid result ∨ ∃ entry ∈ found, check entry.2 = valid result := by
  unfold field at checked
  split at checked
  · exact .inl checked
  next value first =>
    obtain ⟨name, -, known⟩ := List.exists_of_findSome?_eq_some first
    obtain ⟨before, after, rfl, -⟩ := List.lookup_eq_some_iff.1 known
    exact .inr ⟨(name, value), List.mem_append_right _ List.mem_cons_self, checked⟩

theorem exists_item_of_items {found : List Json} {results : List α}
    (checked : items check found = valid results) :
    ∀ result ∈ results, ∃ item ∈ found, check item = valid result := by
  induction found generalizing results with
  | nil =>
    cases checked
    nofun
  | cons item found ih =>
    obtain ⟨_, rest, head, tail, rfl⟩ := seq_eq_valid_iff.1 checked
    obtain ⟨first, checkedFirst, rfl⟩ := map_eq_valid_iff.1 head
    intro result member
    rcases List.mem_cons.1 member with rfl | later
    · exact ⟨item, List.mem_cons_self, checkedFirst⟩
    · obtain ⟨other, listed, checkedOther⟩ := ih tail result later
      exact ⟨other, List.mem_cons_of_mem _ listed, checkedOther⟩

theorem map_fst_of_entries {found : List (String × Json)} {results : List (String × α)}
    (checked : entries check found = valid results) :
    results.map Prod.fst = found.map Prod.fst := by
  induction found generalizing results with
  | nil =>
    cases checked
    rfl
  | cons entry found ih =>
    obtain ⟨_, rest, head, tail, rfl⟩ := seq_eq_valid_iff.1 checked
    obtain ⟨first, -, rfl⟩ := map_eq_valid_iff.1 head
    rw [List.map_cons, List.map_cons, ih tail]

variable {written : α → Json}

theorem items_map {values : List α} (all : ∀ value ∈ values, check (written value) = valid value) :
    items check (values.map written) = valid values := by
  induction values with
  | nil => rfl
  | cons value values ih =>
    obtain ⟨head, tail⟩ := List.forall_mem_cons.1 all
    rw [List.map_cons, items, head, ih tail]
    rfl

theorem entries_map {values : List (String × α)}
    (all : ∀ entry ∈ values, check (written entry.2) = valid entry.2) :
    entries check (values.map fun entry => (entry.1, written entry.2)) = valid values := by
  induction values with
  | nil => rfl
  | cons entry values ih =>
    obtain ⟨head, tail⟩ := List.forall_mem_cons.1 all
    rw [List.map_cons, entries, head, ih tail]
    rfl

end Parts

section Integers

variable {value : Int}

theorem natural?_lt {digits : List Char} {number : Nat} (read : natural? digits = some number) :
    number < 10 ^ Numeral.maxDigits := by
  unfold natural? at read
  split at read
  · cases read
  next accepted =>
    cases read
    simp only [Bool.or_eq_true, not_or, Bool.not_eq_true', Bool.not_eq_false,
      decide_eq_true_eq] at accepted
    obtain ⟨⟨⟨-, digit⟩, short⟩, -⟩ := accepted
    calc
      Numeral.value digits < 10 ^ digits.length := Numeral.value_lt (List.all_eq_true.1 digit)
      _ ≤ 10 ^ Numeral.maxDigits := Nat.pow_le_pow_right (by decide) (Nat.le_of_not_lt short)

theorem natAbs_lt_of_integer? {text : List Char} (read : integer? text = some value) :
    value.natAbs < 10 ^ Numeral.maxDigits := by
  unfold integer? at read
  split at read
  · obtain ⟨_, found, rfl⟩ := Option.map_eq_some_iff.1 read
    obtain ⟨number, small, same⟩ := Option.bind_eq_some_iff.1 found
    cases same
    rw [Int.natAbs_neg]
    exact natural?_lt small
  · obtain ⟨_, found, rfl⟩ := Option.map_eq_some_iff.1 read
    obtain ⟨number, small, same⟩ := Option.bind_eq_some_iff.1 found
    cases same
    exact natural?_lt small

theorem natAbs_lt_of_integerOfText? {text : List Char}
    (read : integerOfText? text = some value) : value.natAbs < 10 ^ Numeral.maxDigits := by
  unfold integerOfText? at read
  dsimp only at read
  split at read
  next found =>
    cases read
    exact natAbs_lt_of_integer? found
  next =>
    obtain ⟨whole, -, read⟩ := Option.bind_eq_some_iff.1 read
    obtain ⟨digits, -, read⟩ := Option.bind_eq_some_iff.1 read
    exact natAbs_lt_of_integer? read

/-- An integer that a regular value says has no more digits than are read, also where it is said
by a flag, a fraction or a text. -/
theorem natAbs_lt_of_integer {found : Json} (regular : found.Regular true)
    (checked : integer found = valid value) : value.natAbs < 10 ^ Numeral.maxDigits := by
  cases found with
  | int number =>
    cases regular with
    | int small =>
      cases checked
      exact small
  | bool flag =>
    cases checked
    apply Numeral.lt_pow_maxDigits
    cases flag <;> decide
  | float number =>
    rw [integer] at checked
    split at checked
    next whole _ =>
      split at checked
      next small =>
        cases checked
        calc
          value.natAbs < Nat.pow 2 63 := small
          _ ≤ 10 ^ 19 := by decide
          _ ≤ 10 ^ Numeral.maxDigits := Nat.pow_le_pow_right (by decide) (by decide)
      next => cases checked
    next => cases checked
  | text text =>
    rw [integer] at checked
    cases read : integerOfText? text.toList with
    | none =>
      rw [read] at checked
      cases checked
    | some number =>
      rw [read] at checked
      cases checked
      exact natAbs_lt_of_integerOfText? read
  | null => cases checked
  | array items => cases checked
  | object entries => cases checked

end Integers

end Checked

/-! Objects by their fields, of which some are left out -/

namespace Json

structure Field where
  key : String
  value : Json
  omitted : Bool

namespace Field

def entry (field : Field) : String × Json :=
  (field.key, field.value)

def ofText (key value : String) : Field :=
  ⟨key, .text value, value = ""⟩

def ofTexts (key : String) (values : List String) : Field :=
  ⟨key, .array (values.map .text), values = []⟩

def shown (fields : List Field) : List (String × Json) :=
  (fields.filter (!·.omitted)).map entry

variable {field : Field} {fields : List Field}

theorem shown_nil : shown [] = [] :=
  rfl

theorem shown_cons : shown (field :: fields) =
    (if field.omitted then [] else [field.entry]) ++ shown fields := by
  unfold shown
  rw [List.filter_cons]
  cases field.omitted <;> rfl

theorem mem_shown_iff {entry : String × Json} :
    entry ∈ shown fields ↔ ∃ field ∈ fields, field.omitted = false ∧ field.entry = entry := by
  simp [shown, and_assoc]

/-- What is shown, where it is known of every field what it takes to be left out. -/
theorem mem_shown_iff_not (spared : String × Json → Prop)
    (known : ∀ field ∈ fields, field.omitted = true ↔ spared field.entry)
    {entry : String × Json} :
    entry ∈ shown fields ↔ entry ∈ fields.map Field.entry ∧ ¬spared entry := by
  rw [mem_shown_iff]
  constructor
  · intro ⟨field, listed, kept, same⟩
    rw [← same, ← known field listed, kept]
    exact ⟨List.mem_map_of_mem listed, Bool.false_ne_true⟩
  · intro ⟨member, needed⟩
    obtain ⟨field, listed, rfl⟩ := List.mem_map.1 member
    rw [← known field listed] at needed
    exact ⟨field, listed, eq_false_of_ne_true needed, rfl⟩

theorem nodup_shown (distinct : (fields.map key).Nodup) : ((shown fields).map Prod.fst).Nodup := by
  rw [shown, List.map_map]
  exact distinct.sublist (List.filter_sublist.map key)

theorem lookup_shown_of_not_mem {name : String} (unknown : name ∉ fields.map key) :
    (shown fields).lookup name = none := by
  rw [List.lookup_eq_none_iff]
  intro entry member
  obtain ⟨field, listed, -, rfl⟩ := mem_shown_iff.1 member
  have other : name ≠ field.key := by
    intro same
    exact unknown (List.mem_map.2 ⟨field, listed, same.symm⟩)
  exact bne_iff_ne.2 other

theorem lookup_shown_of_mem (distinct : (fields.map key).Nodup) (member : field ∈ fields) :
    (shown fields).lookup field.key = if field.omitted then none else some field.value := by
  induction fields with
  | nil => cases member
  | cons first fields ih =>
    rw [List.map_cons, List.nodup_cons] at distinct
    rw [shown_cons]
    rcases List.mem_cons.1 member with rfl | later
    · cases omitted : field.omitted with
      | true => exact lookup_shown_of_not_mem distinct.1
      | false => exact List.lookup_cons_self
    · have other : field.key ≠ first.key := by
        intro same
        exact distinct.1 (List.mem_map.2 ⟨field, later, same⟩)
      rw [← ih distinct.2 later]
      cases first.omitted with
      | true => rfl
      | false =>
        change ((first.key, first.value) :: shown fields).lookup field.key = _
        rw [List.lookup_cons, beq_eq_false_iff_ne.2 other]

/-- A field is checked to the value that it was written for, be it left out or not. -/
theorem check_shown {α : Type} {missing : Checked α} {check : Json → Checked α} {value : α}
    {other : String} (distinct : (fields.map key).Nodup) (member : field ∈ fields)
    (unknown : other ∉ fields.map key) (default : field.omitted = true → missing = .valid value)
    (checked : check field.value = .valid value) :
    Checked.field [field.key, other] missing check (shown fields) = .valid value := by
  have found := lookup_shown_of_mem distinct member
  have none := lookup_shown_of_not_mem unknown
  cases omitted : field.omitted with
  | true =>
    rw [omitted] at found
    simp [Checked.field, List.findSome?, found, none, default omitted]
  | false =>
    rw [omitted] at found
    simp [Checked.field, List.findSome?, found, checked]

theorem check_shown_default {α : Type} {default value : α} {check : Json → Checked α}
    {other : String} (distinct : (fields.map key).Nodup) (member : field ∈ fields)
    (unknown : other ∉ fields.map key) (spared : field.omitted = true → value = default)
    (checked : check field.value = .valid value) :
    Checked.field [field.key, other] (.valid default) check (shown fields) = .valid value := by
  refine check_shown distinct member unknown ?_ checked
  intro omitted
  rw [spared omitted]

theorem check_shown_texts {key other : String} {values : List String}
    (distinct : (fields.map Field.key).Nodup) (member : .ofTexts key values ∈ fields)
    (unknown : other ∉ fields.map Field.key) :
    Checked.field [key, other] (.valid []) (Checked.orNull [] (Checked.list Checked.string))
      (shown fields) = .valid values := by
  have checked : Checked.items Checked.string (values.map .text) = .valid values :=
    Checked.items_map fun _ _ => rfl
  exact check_shown_default distinct member unknown of_decide_eq_true checked

end Field

end Json

end GoMetadata
