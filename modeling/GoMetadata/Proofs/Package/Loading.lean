import GoMetadata.Package
import GoMetadata.Proofs.Package.Linking
import GoMetadata.Proofs.Text.Utf8

/-!
Which descriptors are loaded from files. Each of the files must hold one, and where the names of
the files ascend, the first descriptor of an id is that of the least name.
-/

namespace GoMetadata

theorem mem_descriptorFiles_iff {name : String} {names : List String} :
    name ∈ descriptorFiles names ↔ name ∈ names ∧ hasEnding ".json" name = true :=
  List.mem_filter

theorem ascending_descriptorFiles {names : List String} (ascending : Text.Ascending names) :
    Text.Ascending (descriptorFiles names) :=
  ascending.filter _

theorem mapM_eq_ok_iff {ε α β : Type} {f : α → Except ε β} {xs : List α} {ys : List β} :
    xs.mapM f = .ok ys ↔ xs.map f = ys.map .ok := by
  induction xs generalizing ys with
  | nil => simp [pure, Except.pure, eq_comm]
  | cons x xs ih =>
    rw [List.mapM_cons, List.map_cons]
    cases head : f x with
    | error fault => cases ys <;> simp [bind, Except.bind]
    | ok y =>
      cases tail : xs.mapM f with
      | error fault => cases ys <;> simp [bind, Except.bind, ← ih, tail]
      | ok rest => cases ys <;> simp [bind, Except.bind, pure, Except.pure, ← ih, tail]

theorem mapM_eq_error_iff {ε α β : Type} {f : α → Except ε β} {xs : List α} {fault : ε} :
    xs.mapM f = .error fault ↔
      ∃ (before : List α) (x : α) (after : List α) (ys : List β),
        xs = before ++ x :: after ∧ before.map f = ys.map .ok ∧ f x = .error fault := by
  constructor
  · intro failed
    induction xs with
    | nil => cases failed
    | cons x xs ih =>
      rw [List.mapM_cons] at failed
      cases head : f x with
      | error other =>
        rw [head] at failed
        cases failed
        exact ⟨[], x, xs, [], rfl, rfl, head⟩
      | ok y =>
        cases tail : xs.mapM f with
        | error other =>
          rw [head, tail] at failed
          cases failed
          obtain ⟨before, next, after, ys, rfl, mapped, stopped⟩ := ih tail
          refine ⟨x :: before, next, after, y :: ys, rfl, ?_, stopped⟩
          rw [List.map_cons, List.map_cons, head, mapped]
        | ok ys =>
          rw [head, tail] at failed
          cases failed
  · rintro ⟨before, x, after, ys, rfl, mapped, stopped⟩
    rw [List.mapM_append, mapM_eq_ok_iff.2 mapped, List.mapM_cons, stopped]
    rfl

namespace Descriptor

theorem ofJson_eq_ok_iff {path : Path} {value : Json} {descriptor : Descriptor} :
    ofJson path value = .ok descriptor ↔
      ∃ entries, value = .object entries ∧ check (.object entries) = .valid descriptor := by
  unfold ofJson
  split
  next entries =>
    have only : (∃ others, Json.object entries = .object others ∧
        check (.object others) = .valid descriptor) ↔
        check (.object entries) = .valid descriptor := by
      constructor
      · rintro ⟨others, same, checked⟩
        rw [same, checked]
      · exact fun checked => ⟨entries, rfl, checked⟩
    rw [only]
    cases check (.object entries) <;> simp only [Except.ok.injEq, Checked.valid.injEq, reduceCtorEq]
  next other =>
    constructor
    · nofun
    · rintro ⟨entries, same, -⟩
      exact absurd same (other entries)

theorem ofFile_eq_ok_iff {path : Path} {content : Except Refusal Bytes} {descriptor : Descriptor} :
    ofFile path content = .ok descriptor ↔
      ∃ text entries, content = .ok (Utf8.encode text) ∧
        Json.parse (Text.unifyLineEnds text.toList) = .ok (.object entries) ∧
        check (.object entries) = .valid descriptor := by
  constructor
  · intro held
    unfold ofFile at held
    split at held
    · cases held
    next bytes =>
      split at held
      · cases held
      next text decoded =>
        unfold ofChars at held
        split at held
        · cases held
        · cases held
        next value parsed =>
          obtain ⟨entries, rfl, checked⟩ := ofJson_eq_ok_iff.1 held
          exact ⟨text, entries, congrArg _ (Utf8.decode_eq_ok_iff.1 decoded), parsed, checked⟩
  · rintro ⟨text, entries, rfl, parsed, checked⟩
    have decoded : Utf8.decode (Utf8.encode text) = .ok text := Utf8.decode_eq_ok_iff.2 rfl
    unfold ofFile
    simp only [decoded, ofChars, parsed]
    exact ofJson_eq_ok_iff.2 ⟨entries, rfl, checked⟩

def inFile (read : Path → Except Refusal Bytes) (root : Path) (name : String) :
    Except Failure Descriptor :=
  ofFile (root.join (.ofText name)) (read (root.join (.ofText name)))

section

variable {read : Path → Except Refusal Bytes} {root : Path} {names : List String}
variable {descriptors loaded : List Descriptor} {descriptor : Descriptor}

theorem loadFrom_eq_ok_iff :
    loadFrom read root names = .ok descriptors ↔
      ∃ loaded, (descriptorFiles names).map (inFile read root) = loaded.map .ok ∧
        firsts loaded = descriptors := by
  simp only [← mapM_eq_ok_iff]
  have load : loadFrom read root names =
      (do return firsts (← (descriptorFiles names).mapM (inFile read root))) := rfl
  rw [load]
  cases (descriptorFiles names).mapM (inFile read root) <;>
    simp [bind, Except.bind, pure, Except.pure]

theorem mem_loaded_iff (mapped : names.map (inFile read root) = loaded.map .ok) :
    descriptor ∈ loaded ↔ ∃ name ∈ names, inFile read root name = .ok descriptor := by
  have member : .ok descriptor ∈ names.map (inFile read root) ↔ descriptor ∈ loaded := by
    rw [mapped, List.mem_map]
    simp
  rw [← member, List.mem_map]

theorem exists_inFile_of_mem (mapped : names.map (inFile read root) = loaded.map .ok)
    {name : String} (member : name ∈ names) :
    ∃ descriptor, inFile read root name = .ok descriptor := by
  have held : inFile read root name ∈ loaded.map .ok := by
    rw [← mapped]
    exact List.mem_map_of_mem member
  obtain ⟨descriptor, -, read⟩ := List.mem_map.1 held
  exact ⟨descriptor, read.symm⟩

theorem exists_loaded_of_forall
    (held : ∀ name ∈ names, ∃ descriptor, inFile read root name = .ok descriptor) :
    ∃ loaded : List Descriptor, names.map (inFile read root) = loaded.map .ok := by
  induction names with
  | nil => exact ⟨[], rfl⟩
  | cons name names ih =>
    obtain ⟨⟨first, head⟩, others⟩ := List.forall_mem_cons.1 held
    obtain ⟨rest, tail⟩ := ih others
    refine ⟨first :: rest, ?_⟩
    rw [List.map_cons, List.map_cons, head, tail]

/-- Among descriptors in files of ascending names, the first with some property is in the file of
the least name. -/
theorem exists_least_of_find? {p : Descriptor → Bool} (ascending : Text.Ascending names)
    (mapped : names.map (inFile read root) = loaded.map .ok)
    (found : loaded.find? p = some descriptor) :
    ∃ name ∈ names, inFile read root name = .ok descriptor ∧
      ∀ other ∈ names, ∀ candidate, inFile read root other = .ok candidate →
        p candidate = true → name ≤ other := by
  induction names generalizing loaded with
  | nil =>
    rw [List.map_nil, eq_comm, List.map_eq_nil_iff] at mapped
    rw [mapped] at found
    cases found
  | cons name names ih =>
    obtain ⟨above, restAscending⟩ := List.pairwise_cons.1 ascending
    cases loaded with
    | nil => cases found
    | cons first rest =>
      rw [List.map_cons, List.map_cons, List.cons.injEq] at mapped
      obtain ⟨head, tail⟩ := mapped
      by_cases satisfied : p first = true
      · rw [List.find?_cons_of_pos satisfied] at found
        cases found
        refine ⟨name, List.mem_cons_self, head, fun other member _ _ _ => ?_⟩
        rcases List.mem_cons.1 member with rfl | later
        · exact le_refl _
        · exact (above other later).le
      · rw [List.find?_cons_of_neg satisfied] at found
        obtain ⟨least, member, held, below⟩ := ih restAscending tail found
        refine ⟨least, List.mem_cons_of_mem _ member, held, ?_⟩
        intro other otherMember candidate otherHeld good
        rcases List.mem_cons.1 otherMember with rfl | later
        · rw [head] at otherHeld
          cases otherHeld
          exact absurd good satisfied
        · exact below other later candidate otherHeld good

end

end Descriptor

end GoMetadata
