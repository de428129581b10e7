import GoMetadata.Label
import GoMetadata.Proofs.Text.Basic
import Mathlib.Data.List.Basic

/-!
Labels by their parts: a repository, the segments of a package and the name of a target, and the
ways in which these are written. Whatever way is chosen, taking the text apart again gives the
package, with the main repository written in the shortest way, and the name.
-/

namespace GoMetadata.Label

structure RepositoryName where
  text : String
  full : text ≠ ""
  plain : ∀ c ∈ text.toList, c ≠ '@' ∧ c ≠ '/' ∧ c ≠ ':'

inductive Repository where
  /-- The main repository, written with up to two marks. -/
  | main (marks : Fin 3)
  | named (doubled : Bool) (name : RepositoryName)

namespace Repository

def chars : Repository → List Char
  | main marks => List.replicate marks '@'
  | named doubled name => (if doubled then ['@', '@'] else ['@']) ++ name.text.toList

/-- The main repository is one however it is written; others are compared as they are written. -/
def Same : Repository → Repository → Prop
  | main _, main _ => True
  | named doubled name, named otherDoubled otherName =>
    doubled = otherDoubled ∧ name.text = otherName.text
  | _, _ => False

def root : Repository → List Char
  | main _ => []
  | named doubled name => (named doubled name).chars

end Repository

@[ext]
structure Segment where
  text : String
  full : text ≠ ""
  single : text ≠ "..."
  plain : ∀ c ∈ text.toList, c ≠ '/' ∧ c ≠ ':'

@[ext]
structure TargetName where
  text : String
  full : text ≠ ""
  plain : ∀ c ∈ text.toList, c ≠ ':'

def TargetName.IsWildcard (name : TargetName) : Prop :=
  name.text = "all" ∨ name.text = "*" ∨ name.text = "all-targets"

structure Package where
  repository : Repository
  segments : List Segment

def written (start : List Char) (parts : List (List Char)) : List Char :=
  start ++ '/' :: '/' :: ['/'].intercalate parts

namespace Package

def parts (package : Package) : List (List Char) :=
  package.segments.map (·.text.toList)

def chars (package : Package) : List Char :=
  written package.repository.chars package.parts

def charsBelow (package : Package) : List Char :=
  written package.repository.chars (package.parts ++ ["...".toList])

def normal (package : Package) : List Char :=
  written package.repository.root package.parts

end Package

/-- How the label of a target is written. The name may be left out if it is that of the last
segment. -/
inductive Spells (package : Package) (name : TargetName) : List Char → Prop where
  | full : Spells package name (package.chars ++ ':' :: name.text.toList)
  | short {last : Segment} (ends : package.segments.getLast? = some last)
      (same : last.text = name.text) : Spells package name package.chars

/-- How everything below a package is written. A name that stands for every target may follow. -/
inductive SpellsBelow (package : Package) : List Char → Prop where
  | plain : SpellsBelow package package.charsBelow
  | all {name : TargetName} (wildcard : name.IsWildcard) :
      SpellsBelow package (package.charsBelow ++ ':' :: name.text.toList)

theorem RepositoryName.exists_chars (name : RepositoryName) :
    ∃ c rest, name.text.toList = c :: rest ∧ c ≠ '@' ∧ c ≠ '/' := by
  cases chars : name.text.toList with
  | nil => exact absurd (String.toList_eq_nil_iff.1 chars) name.full
  | cons c rest =>
    obtain ⟨mark, slash, -⟩ := name.plain c (by rw [chars]; exact List.mem_cons_self)
    exact ⟨c, rest, rfl, mark, slash⟩

theorem Repository.same_iff {repository other : Repository} :
    repository.Same other ↔ repository.root = other.root := by
  cases repository with
  | main marks =>
    cases other with
    | main otherMarks => simp [Same, root]
    | named doubled name => cases doubled <;> simp [Same, root, chars]
  | named doubled name =>
    cases other with
    | main marks => cases doubled <;> simp [Same, root, chars]
    | named otherDoubled otherName =>
      -- A name does not begin with a mark, so the marks in front of it can be told from it.
      obtain ⟨c, rest, name', mark, -⟩ := name.exists_chars
      obtain ⟨d, more, otherName', otherMark, -⟩ := otherName.exists_chars
      simp only [Same, root, chars, ← String.toList_inj, name', otherName']
      cases doubled <;> cases otherDoubled <;> simp [mark, otherMark.symm]

theorem Repository.plain_root (repository : Repository) :
    ∀ c ∈ repository.root, c ≠ '/' ∧ c ≠ ':' := by
  intro c member
  cases repository with
  | main marks => cases member
  | named doubled name =>
    have inside : c = '@' ∨ c ∈ name.text.toList := by
      cases doubled <;> simpa [root, chars] using member
    cases inside with
    | inl mark =>
      rw [mark]
      decide
    | inr inner =>
      exact (name.plain c inner).2

theorem normalize_chars (repository : Repository) (rest : List Char) :
    normalize (repository.chars ++ '/' :: '/' :: rest) = repository.root ++ '/' :: '/' :: rest := by
  cases repository with
  | main marks =>
    match marks with
    | 0 => rfl
    | 1 => rfl
    | 2 => rfl
  | named doubled name =>
    obtain ⟨c, more, same, mark, slash⟩ := name.exists_chars
    cases doubled <;>
      simp [normalize, Repository.root, Repository.chars, same, mark.symm, slash.symm]

theorem normalize_written (repository : Repository) (parts : List (List Char)) (rest : List Char) :
    normalize (written repository.chars parts ++ rest) = written repository.root parts ++ rest := by
  simp only [written, List.append_assoc, List.cons_append]
  exact normalize_chars repository _

section SplitLast

variable {separator : Char} {before after text : List Char}

theorem splitLast?_eq_none (absent : separator ∉ text) : splitLast? separator text = none := by
  induction text with
  | nil => rfl
  | cons c rest ih =>
    obtain ⟨head, tail⟩ := not_or.1 (mt List.mem_cons.2 absent)
    rw [splitLast?, ih tail]
    exact if_neg (Ne.symm head)

theorem splitLast?_append (absent : separator ∉ after) :
    splitLast? separator (before ++ separator :: after) = some (before, after) := by
  induction before with
  | nil =>
    rw [List.nil_append, splitLast?, splitLast?_eq_none absent]
    exact if_pos rfl
  | cons c rest ih =>
    rw [List.cons_append, splitLast?, ih]

theorem baseName_append (absent : '/' ∉ after) : baseName (before ++ '/' :: after) = after := by
  rw [baseName, splitLast?_append absent]

/-- A name has no colon, so it is what follows the last one. -/
theorem split_append (absent : ':' ∉ after) :
    split (before ++ ':' :: after) = (before, after) := by
  rw [split, splitLast?_append absent]

theorem split_eq (absent : ':' ∉ text) : split text = (text, baseName text) := by
  rw [split, splitLast?_eq_none absent]

end SplitLast

def ArePlain (parts : List (List Char)) : Prop :=
  ∀ part ∈ parts, ∀ c ∈ part, c ≠ '/' ∧ c ≠ ':'

def isSlash (c : Char) : Bool := c == '/'

theorem isSlash_eq_false {c : Char} (other : c ≠ '/') : isSlash c = false :=
  beq_false_of_ne other

section Written

variable {start : List Char} {parts : List (List Char)}
variable (plainStart : ∀ c ∈ start, c ≠ '/' ∧ c ≠ ':') (plain : ArePlain parts)

include plain

theorem ne_colon_of_mem_intercalate {c : Char} (member : c ∈ ['/'].intercalate parts) :
    c ≠ ':' := by
  induction parts with
  | nil => cases member
  | cons part rest ih =>
    obtain ⟨head, tail⟩ := List.forall_mem_cons.1 plain
    cases rest with
    | nil =>
      rw [List.intercalate_singleton] at member
      exact (head c member).2
    | cons next more =>
      simp only [List.intercalate_cons_cons, List.append_assoc, List.mem_append,
        List.mem_singleton] at member
      rcases member with inside | rfl | later
      · exact (head c inside).2
      · decide
      · exact ih tail later

include plainStart

theorem not_mem_written : ':' ∉ written start parts := by
  intro member
  simp only [written, List.mem_append, List.mem_cons] at member
  rcases member with inside | wrong | wrong | later
  · exact (plainStart ':' inside).2 rfl
  · cases wrong
  · cases wrong
  · exact ne_colon_of_mem_intercalate plain later rfl

theorem pieces_written :
    Text.pieces isSlash (written start parts) =
      start :: [] :: if parts = [] then [[]] else parts := by
  have slash : isSlash '/' = true := rfl
  have first : Text.pieces isSlash start = [start] :=
    Text.pieces_eq_singleton fun c member => isSlash_eq_false (plainStart c member).1
  have rest : Text.pieces isSlash (['/'].intercalate parts) =
      if parts = [] then [[]] else parts := by
    by_cases none : parts = []
    · rw [if_pos none, none]
      rfl
    · rw [if_neg none]
      exact Text.pieces_intercalate slash none
        fun part member c inside => isSlash_eq_false (plain part member c inside).1
  rw [written, Text.pieces_append_cons slash, first, Text.pieces, if_pos slash, rest]
  rfl

end Written

theorem intercalate_append (parts more : List (List Char)) (first : parts ≠ []) (next : more ≠ []) :
    ['/'].intercalate (parts ++ more) =
      ['/'].intercalate parts ++ '/' :: ['/'].intercalate more := by
  induction parts with
  | nil => exact absurd rfl first
  | cons part rest ih =>
    cases rest with
    | nil =>
      obtain ⟨head, tail, rfl⟩ := List.exists_cons_of_ne_nil next
      simp
    | cons second others =>
      rw [List.cons_append, List.cons_append, List.intercalate_cons_cons,
        List.intercalate_cons_cons, ← List.cons_append, ih (List.cons_ne_nil _ _)]
      simp

def stem (start : List Char) (parts : List (List Char)) : List Char :=
  if parts = [] then start ++ ['/'] else written start parts

theorem written_append (start : List Char) (parts : List (List Char)) {more : List (List Char)}
    (next : more ≠ []) :
    written start (parts ++ more) = stem start parts ++ '/' :: ['/'].intercalate more := by
  unfold stem
  by_cases none : parts = []
  · simp [written, none]
  · rw [if_neg none, written, written, intercalate_append parts more none next]
    simp

theorem exists_written_eq (start : List Char) (parts : List (List Char)) :
    ∃ before, written start parts = before ++ '/' :: parts.getLast?.getD [] := by
  rcases parts.eq_nil_or_concat' with rfl | ⟨front, last, rfl⟩
  · exact ⟨start ++ ['/'], by simp [written]⟩
  · refine ⟨stem start front, ?_⟩
    rw [written_append start front (List.cons_ne_nil _ _), List.intercalate_singleton,
      List.getLast?_concat]
    rfl

section Package

variable (package : Package)

theorem Package.arePlain_parts : ArePlain package.parts := by
  intro part member
  obtain ⟨segment, -, rfl⟩ := List.mem_map.1 member
  exact segment.plain

theorem Package.ne_nil_of_mem_parts {part : List Char} (member : part ∈ package.parts) :
    part ≠ [] := by
  obtain ⟨segment, -, rfl⟩ := List.mem_map.1 member
  exact mt String.toList_eq_nil_iff.1 segment.full

theorem Package.not_mem_parts : "...".toList ∉ package.parts := by
  intro member
  obtain ⟨segment, -, same⟩ := List.mem_map.1 member
  exact segment.single (String.toList_inj.1 same)

theorem Package.pieces_normal :
    Text.pieces isSlash package.normal =
      package.repository.root :: [] :: if package.parts = [] then [[]] else package.parts :=
  pieces_written package.repository.plain_root package.arePlain_parts

theorem Package.colon_not_mem_normal : ':' ∉ package.normal :=
  not_mem_written package.repository.plain_root package.arePlain_parts

end Package

/-- Taking a label apart gives the package, with the main repository in the shortest way, and the
name, also where the text leaves the name out. -/
theorem split_normalize_of_spells {package : Package} {name : TargetName} {text : List Char}
    (spells : Spells package name text) :
    split (normalize text) = (package.normal, name.text.toList) := by
  cases spells with
  | full =>
    have normal := normalize_written package.repository package.parts (':' :: name.text.toList)
    rw [Package.chars, normal]
    exact split_append fun colon => name.plain ':' colon rfl
  | @short last ends same =>
    have normal := normalize_written package.repository package.parts []
    rw [List.append_nil, List.append_nil] at normal
    obtain ⟨before, shape⟩ := exists_written_eq package.repository.root package.parts
    have lastPart : package.parts.getLast? = some last.text.toList := by
      rw [Package.parts, List.getLast?_map, ends]
      rfl
    rw [lastPart, Option.getD_some] at shape
    have base : baseName package.normal = last.text.toList := by
      rw [Package.normal, shape]
      exact baseName_append fun slash => (last.plain '/' slash).1 rfl
    rw [Package.chars, normal, ← Package.normal, split_eq package.colon_not_mem_normal, base, same]

theorem written_below (start : List Char) (parts : List (List Char)) :
    written start (parts ++ ["...".toList]) = stem start parts ++ recursiveEnding := by
  rw [written_append start parts (List.cons_ne_nil _ _), List.intercalate_singleton]
  rfl

theorem exists_split_of_spellsBelow {package : Package} {text : List Char}
    (spells : SpellsBelow package text) :
    ∃ name, split (normalize text) =
      (stem package.repository.root package.parts ++ recursiveEnding, name) := by
  have plain : ArePlain (package.parts ++ ["...".toList]) := by
    intro part member
    rcases List.mem_append.1 member with inside | last
    · exact package.arePlain_parts part inside
    · rw [List.mem_singleton.1 last]
      simp
  have colon : ':' ∉ stem package.repository.root package.parts ++ recursiveEnding := by
    rw [← written_below]
    exact not_mem_written package.repository.plain_root plain
  have normal : ∀ rest, normalize (package.charsBelow ++ rest) =
      stem package.repository.root package.parts ++ recursiveEnding ++ rest := by
    intro rest
    rw [Package.charsBelow, normalize_written, written_below]
  cases spells with
  | plain =>
    have bare := normal []
    rw [List.append_nil, List.append_nil] at bare
    rw [bare]
    exact ⟨_, split_eq colon⟩
  | @all name _ =>
    rw [normal]
    exact ⟨_, split_append fun colon => name.plain ':' colon rfl⟩

end GoMetadata.Label
