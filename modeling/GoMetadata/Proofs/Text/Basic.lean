import GoMetadata.Text.Basic
import Mathlib.Data.List.Induction
import Mathlib.Data.String.Basic

/-!
The pieces of a text that is put together from parts, and texts in ascending order. Parts without a
separator are the pieces of the text in which a separator stands between them.
-/

namespace GoMetadata.Text

variable {separates : Char → Bool} {separator : Char}

theorem pieces_eq_singleton {text : List Char} (plain : ∀ c ∈ text, separates c = false) :
    pieces separates text = [text] := by
  induction text with
  | nil => rfl
  | cons c rest ih =>
    obtain ⟨head, tail⟩ := List.forall_mem_cons.1 plain
    rw [pieces, head, ih tail]
    rfl

theorem pieces_append_cons (separating : separates separator = true) (before after : List Char) :
    pieces separates (before ++ separator :: after) =
      pieces separates before ++ pieces separates after := by
  induction before with
  | nil => simp [pieces, separating]
  | cons c rest ih =>
    rw [List.cons_append, pieces, pieces, ih]
    by_cases cut : separates c = true
    · rw [if_pos cut, if_pos cut, List.cons_append]
    · rw [if_neg cut, if_neg cut]
      cases same : pieces separates rest with
      | nil => exact absurd same (pieces_ne_nil separates rest)
      | cons piece more => rfl

theorem pieces_intercalate (separating : separates separator = true) {parts : List (List Char)}
    (nonempty : parts ≠ []) (plain : ∀ part ∈ parts, ∀ c ∈ part, separates c = false) :
    pieces separates ([separator].intercalate parts) = parts := by
  induction parts with
  | nil => exact absurd rfl nonempty
  | cons part rest ih =>
    obtain ⟨head, tail⟩ := List.forall_mem_cons.1 plain
    cases rest with
    | nil =>
      rw [List.intercalate_singleton]
      exact pieces_eq_singleton head
    | cons next more =>
      rw [List.intercalate_cons_cons, List.append_assoc, List.singleton_append,
        pieces_append_cons separating, pieces_eq_singleton head, ih (List.cons_ne_nil _ _) tail]
      rfl

theorem exists_pieces_concat {c : Char} (plain : separates c = false) (text : List Char) :
    ∃ before last, pieces separates text = before ++ [last] ∧
      pieces separates (text ++ [c]) = before ++ [last ++ [c]] := by
  induction text with
  | nil =>
    refine ⟨[], [], rfl, ?_⟩
    rw [List.nil_append, pieces, plain]
    rfl
  | cons d rest ih =>
    obtain ⟨before, last, same, longer⟩ := ih
    rw [List.cons_append, pieces, pieces, same, longer]
    split
    · exact ⟨[] :: before, last, rfl, rfl⟩
    · cases before with
      | nil => exact ⟨[], d :: last, rfl, rfl⟩
      | cons piece more => exact ⟨(d :: piece) :: more, last, rfl, rfl⟩

theorem mem_of_mem_pieces {text piece : List Char} {c : Char}
    (found : piece ∈ pieces separates text) (inside : c ∈ piece) : c ∈ text := by
  induction text generalizing piece with
  | nil =>
    rw [pieces, List.mem_singleton] at found
    rwa [found] at inside
  | cons d rest ih =>
    rw [pieces] at found
    split at found
    next =>
      rcases List.mem_cons.1 found with rfl | later
      · cases inside
      · exact List.mem_cons_of_mem d (ih later inside)
    next =>
      split at found
      next none => exact absurd none (pieces_ne_nil separates rest)
      next first more same =>
        rw [same] at ih
        rcases List.mem_cons.1 found with rfl | later
        · rcases List.mem_cons.1 inside with rfl | inner
          · exact List.mem_cons_self
          · exact List.mem_cons_of_mem d (ih List.mem_cons_self inner)
        · exact List.mem_cons_of_mem d (ih (List.mem_cons_of_mem first later) inside)

theorem mem_of_mem_runs {text run : List Char} {c : Char} (found : run ∈ runs separates text)
    (inside : c ∈ run) : c ∈ text :=
  mem_of_mem_pieces (List.mem_filter.1 found).1 inside

/-!
Lists of texts without repetitions. Sorted texts are in strictly ascending order, so no text is in
them twice, and which texts they are determines the whole list. Others are kept in the order in
which they first occur.
-/

def Ascending (texts : List String) : Prop :=
  texts.Pairwise (· < ·)

theorem ascending_insertAscending {text : String} {texts : List String}
    (ascending : Ascending texts) : Ascending (insertAscending text texts) := by
  induction texts with
  | nil => exact List.pairwise_singleton _ _
  | cons head rest ih =>
    obtain ⟨above, restAscending⟩ := List.pairwise_cons.1 ascending
    rw [insertAscending]
    split
    next less =>
      refine List.pairwise_cons.2 ⟨fun other member => ?_, ascending⟩
      rcases List.mem_cons.1 member with rfl | later
      · exact less
      · exact less.trans (above other later)
    next notLess =>
      split
      · exact ascending
      next different =>
        have greater : head < text := lt_of_le_of_ne (not_lt.1 notLess) (Ne.symm different)
        refine List.pairwise_cons.2 ⟨fun other member => ?_, ih restAscending⟩
        rcases mem_insertAscending.1 member with rfl | later
        · exact greater
        · exact above other later

theorem ascending_sortDistinct (texts : List String) : Ascending (sortDistinct texts) := by
  induction texts with
  | nil => exact List.Pairwise.nil
  | cons head rest ih => exact ascending_insertAscending ih

example : sortDistinct ["b", "a", "\uffff", "b", "😀", ""] = ["", "a", "b", "\uffff", "😀"] := by
  decide +kernel

theorem Ascending.nodup {texts : List String} (ascending : Ascending texts) : texts.Nodup :=
  List.Pairwise.imp ne_of_lt ascending

theorem Ascending.eq_of_mem_iff {texts others : List String} (ascending : Ascending texts)
    (othersAscending : Ascending others) (same : ∀ text, text ∈ texts ↔ text ∈ others) :
    texts = others := by
  have perm : texts.Perm others :=
    (List.perm_ext_iff_of_nodup ascending.nodup othersAscending.nodup).2 same
  have noCycle : ∀ text other : String, text ∈ texts → other ∈ others → text < other →
      other < text → text = other :=
    fun _ _ _ _ less greater => absurd greater (lt_asymm less)
  exact perm.eq_of_pairwise noCycle ascending othersAscending

theorem eraseDups_concat (texts : List String) (text : String) :
    (texts ++ [text]).eraseDups = texts.eraseDups ++ if text ∈ texts then [] else [text] := by
  rw [List.eraseDups_append]
  by_cases known : text ∈ texts
  · simp [known, List.removeAll]
  · simp [known, List.removeAll, List.eraseDups_cons]

theorem nodup_eraseDups (texts : List String) : texts.eraseDups.Nodup := by
  induction texts using List.reverseRecOn with
  | nil => exact List.nodup_nil
  | append_singleton texts text ih =>
    rw [eraseDups_concat]
    split
    · rwa [List.append_nil]
    next unknown =>
      have apart : ∀ other ∈ texts.eraseDups, other ≠ text := by
        rintro other member rfl
        exact unknown (List.mem_eraseDups.1 member)
      refine List.nodup_append.2 ⟨ih, List.pairwise_singleton _ _, ?_⟩
      simpa only [List.mem_singleton, forall_eq] using apart

end GoMetadata.Text
