import GoMetadata.FileTree
import GoMetadata.Proofs.Text.Basic

/-!
Files that are read from a tree. The system cannot be asked for a path with a null character and
says of every other path what is there, if anything is. What is put where a path text leads is found
there.
-/

namespace GoMetadata

namespace Path

theorem contains_of_hasNul_ofText {text : String} (nul : (ofText text).hasNul = true) :
    '\x00' ∈ text.toList := by
  obtain ⟨part, member, inside⟩ := List.any_eq_true.1 nul
  obtain ⟨run, found, rfl⟩ := List.mem_map.1 (List.mem_filter.1 member).1
  rw [String.toList_ofList, List.contains_iff_mem] at inside
  exact Text.mem_of_mem_runs found inside

theorem hasNul_of_join {base other : Path} (nul : (base.join other).hasNul = true) :
    base.hasNul = true ∨ other.hasNul = true := by
  unfold join at nul
  split at nul
  · exact .inr nul
  · rwa [hasNul, List.any_append, Bool.or_eq_true] at nul

end Path

namespace FileTree

theorem read_eq_nulCharacter_iff {tree : FileTree} {cwd path : Path} :
    tree.read cwd path = .error .nulCharacter ↔ path.hasNul = true := by
  unfold FileTree.read
  split
  next nul => exact iff_of_true rfl nul
  next plain =>
    refine iff_of_false ?_ plain
    split <;> nofun

theorem follow_empty (subject : String) (parts : List String) :
    follow subject [] (.directory []) parts = .ok (.directory []) ∨
      ∃ error, follow subject [] (.directory []) parts = .error error := by
  induction parts with
  | nil => exact .inl rfl
  | cons part parts ih =>
    unfold follow
    dsimp only
    split
    · exact ih
    split
    · exact ih
    split
    · exact .inr ⟨_, rfl⟩
    · exact .inr ⟨_, rfl⟩

theorem find_empty_ne_file (cwd path : Path) (subject : String) (content : Bytes) :
    (directory []).find cwd path subject ≠ .ok (.file content) := by
  unfold find findText
  split
  · nofun
  · dsimp only
    rcases follow_empty subject ((if path.text.toList.head? = some '/' then [] else cwd.parts) ++
      partsToFollow path.text) with same | ⟨error, same⟩
    · rw [same]
      nofun
    · rw [same]
      nofun

theorem read_empty_ne_ok (cwd path : Path) (content : Bytes) :
    (directory []).read cwd path ≠ .ok content := by
  unfold FileTree.read
  split
  · nofun
  · split
    · nofun
    · nofun
    next found => exact absurd found (find_empty_ne_file cwd path _ _)

section Put

/-- Names lead from a directory to what it holds under them. -/
def IsName (part : String) : Prop :=
  part ≠ "." ∧ part ≠ ".." ∧ part.utf8ByteSize ≤ maxNameLength

theorem lookup_putEntry {α : Type} (key : String) (value : α) (entries : List (String × α)) :
    (putEntry key value entries).lookup key = some value := by
  induction entries with
  | nil => exact List.lookup_cons_self
  | cons entry rest ih =>
    rw [putEntry]
    split
    · exact List.lookup_cons_self
    next other => rw [List.lookup_cons, beq_false_of_ne (Ne.symm other), ih]

variable {parts : List String} {content : Bytes}

theorem follow_putFile (names : ∀ part ∈ parts, IsName part) (subject : String)
    (trail : List FileTree) (tree : FileTree) :
    follow subject trail (tree.putFile content parts) parts = .ok (.file content) := by
  induction parts generalizing trail tree with
  | nil => rfl
  | cons part parts ih =>
    obtain ⟨⟨notHere, notAbove, short⟩, below⟩ := List.forall_mem_cons.1 names
    unfold putFile follow
    dsimp only
    rw [if_neg notHere, if_neg notAbove, if_neg (Nat.not_lt.2 short), lookup_putEntry]
    exact ih below _ _

theorem findText_putFile {cwd : Path} {text : String} (subject : String) (tree : FileTree)
    (leads : (if text.toList.head? = some '/' then [] else cwd.parts) ++ partsToFollow text = parts)
    (names : ∀ part ∈ parts, IsName part) (short : text.utf8ByteSize ≤ maxPathLength) :
    (tree.putFile content parts).findText cwd text subject = .ok (.file content) := by
  rw [findText, if_neg (Nat.not_lt.2 short)]
  dsimp only
  rw [leads]
  exact follow_putFile names subject [] tree

end Put

end FileTree

end GoMetadata
