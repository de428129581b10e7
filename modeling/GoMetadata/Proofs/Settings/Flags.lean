import GoMetadata.Proofs.Text.Lines
import GoMetadata.Proofs.Text.Runs
import GoMetadata.Settings

/-!
Flags in one text and in a list. The flags of a text are its longest stretches without commas and
blanks. A list of them gives them back, and so does every text in which they stand one after the
other, whatever separates them.
-/

namespace GoMetadata.Settings

open Text

def spellFlags (front : String) : List (String × String) → String
  | [] => front
  | (flag, gap) :: more => front ++ flag ++ spellFlags gap more

/-- Nothing but commas and blanks stands around the flags, and something between each two. -/
structure AreApart (front : String) (parts : List (String × String)) : Prop where
  front : IsGap separatesFlags front.toList
  behind : ∀ part ∈ parts, IsGap separatesFlags part.2.toList
  between : ∀ part ∈ parts.dropLast, part.2 ≠ ""

section Text

variable {front gap flag : String} {parts more : List (String × String)}

theorem toList_splitFlags (text : String) :
    (splitFlags text).map String.toList = runs separatesFlags text.toList := by
  rw [splitFlags, List.map_map]
  have same : String.toList ∘ String.ofList = id := funext fun _ => String.toList_ofList
  rw [same, List.map_id]

theorem splitFlags_of_isGap (isGap : IsGap separatesFlags front.toList) : splitFlags front = [] := by
  rw [splitFlags, runs_gap isGap]
  rfl

theorem splitFlags_append {rest : String} (isGap : IsGap separatesFlags front.toList)
    (isFlag : IsWord separatesFlags flag.toList) (breaks : Breaks separatesFlags rest.toList) :
    splitFlags (front ++ flag ++ rest) = flag :: splitFlags rest := by
  rw [splitFlags, String.toList_append, String.toList_append, List.append_assoc,
    runs_gap_append isGap, runs_word_append isFlag breaks, List.map_cons, String.ofList_toList]
  rfl

theorem AreApart.tail (apart : AreApart front ((flag, gap) :: more)) : AreApart gap more where
  front := apart.behind _ List.mem_cons_self
  behind := fun part inside => apart.behind part (List.mem_cons_of_mem _ inside)
  between := by
    intro part inside
    cases more with
    | nil => cases inside
    | cons next later => exact apart.between part (List.mem_cons_of_mem _ inside)

theorem AreApart.breaks (apart : AreApart front ((flag, gap) :: more)) :
    Breaks separatesFlags (spellFlags gap more).toList := by
  cases more with
  | nil => exact apart.tail.front.breaks
  | cons next later =>
    have full : gap.toList ≠ [] := by
      rw [ne_eq, String.toList_eq_nil_iff]
      exact apart.between _ List.mem_cons_self
    rw [spellFlags, String.append_assoc, String.toList_append]
    exact apart.tail.front.append_breaks full _

theorem splitFlags_spellFlags (flags : ∀ part ∈ parts, IsWord separatesFlags part.1.toList)
    (apart : AreApart front parts) : splitFlags (spellFlags front parts) = parts.map Prod.fst := by
  induction parts generalizing front with
  | nil => exact splitFlags_of_isGap apart.front
  | cons part more ih =>
    obtain ⟨head, tail⟩ := List.forall_mem_cons.1 flags
    rw [spellFlags, splitFlags_append apart.front head apart.breaks, ih tail apart.tail]
    rfl

end Text

section Stages

theorem separatesFlags_of_isBlank {c : Char} (blank : isBlank c = true) :
    separatesFlags c = true := by
  rw [separatesFlags, blank, Bool.or_true]

theorem filter_cutAtGaps_stripChars (text : List Char) :
    (cutAtGaps separatesFlags (stripChars text)).filter (· ≠ []) = runs separatesFlags text := by
  obtain ⟨front, back, same, frontBlank, backBlank⟩ := exists_stripChars text
  have frontGap : IsGap separatesFlags front :=
    fun c inside => separatesFlags_of_isBlank (frontBlank c inside)
  have backGap : IsGap separatesFlags back :=
    fun c inside => separatesFlags_of_isBlank (backBlank c inside)
  calc
    _ = runs separatesFlags (stripChars text) := filter_cutAtGaps ..
    _ = runs separatesFlags (front ++ (stripChars text ++ back)) := by
      rw [runs_gap_append frontGap, runs_append_gap backGap]
    _ = runs separatesFlags text := by rw [← same]

end Stages

section Lists

theorem strip_of_isWord {flag : String} (isFlag : IsWord separatesFlags flag.toList) :
    strip flag = flag := by
  have plain : ∀ c ∈ flag.toList, isBlank c = false := by
    intro c inside
    rw [← Bool.not_eq_true]
    intro blank
    have apart := isFlag.plain c inside
    rw [separatesFlags_of_isBlank blank] at apart
    cases apart
  rw [strip, stripChars_of_plain plain, String.ofList_toList]

theorem flagsOf_list {flags : List String}
    (isFlag : ∀ flag ∈ flags, IsWord separatesFlags flag.toList) :
    flagsOf (.list (flags.map .text)) = .ok flags := by
  have texts : (flags.map Toml.Value.text).mapM Toml.Value.toText = .ok flags := by
    rw [List.mapM_map]
    exact List.mapM_pure.trans (congrArg _ (List.map_id' flags))
  have stripped : flags.map strip = flags := by
    rw [List.map_congr_left fun flag inside => strip_of_isWord (isFlag flag inside), List.map_id']
  have kept : flags.filter (· ≠ "") = flags := by
    refine List.filter_eq_self.2 fun flag inside => ?_
    have full := (isFlag flag inside).nonempty
    rw [ne_eq, String.toList_eq_nil_iff] at full
    exact decide_eq_true full
  rw [flagsOf, listedFlags, texts]
  show Except.ok ((flags.map strip).filter (· ≠ "")) = _
  rw [stripped, kept]

end Lists

/-- The flags of a text are its longest stretches without commas and blanks, in order, as stripping
the text, cutting it at gaps and dropping what is empty makes them; none is empty or holds a
separator, and the list of them gives the same flags. Flags that stand apart in a text are the flags
of that text. -/
theorem flags_are_runs_and_read_back :
    (∀ text, ∃ flags, flagsOf (.text text) = .ok flags ∧
      AreRuns separatesFlags text.toList (flags.map String.toList) ∧
      flags.map String.toList =
        (cutAtGaps separatesFlags (stripChars text.toList)).filter (· ≠ []) ∧
      (∀ flag ∈ flags, IsWord separatesFlags flag.toList) ∧
      flagsOf (.list (flags.map .text)) = .ok flags) ∧
    ∀ front parts, (∀ part ∈ parts, IsWord separatesFlags part.1.toList) → AreApart front parts →
      flagsOf (.text (spellFlags front parts)) = .ok (parts.map Prod.fst) := by
  constructor
  · intro text
    have runs := toList_splitFlags text
    have isFlag : ∀ flag ∈ splitFlags text, IsWord separatesFlags flag.toList := by
      intro flag inside
      have found : flag.toList ∈ (splitFlags text).map String.toList :=
        List.mem_map_of_mem inside
      exact isWord_of_mem_runs (runs ▸ found)
    refine ⟨splitFlags text, rfl, ?_, ?_, isFlag, flagsOf_list isFlag⟩
    · rw [runs]
      exact areRuns_runs ..
    · rw [runs, filter_cutAtGaps_stripChars]
  · intro front parts flags apart
    exact congrArg Except.ok (splitFlags_spellFlags flags apart)

/-- Two flags with a comma and blanks of several kinds around them. -/
theorem flags_are_runs_and_read_back_mixed_separators :
    let parts := [("-a", ",\t,"), ("--b=c", "\u3000")]
    (∀ part ∈ parts, IsWord separatesFlags part.1.toList) ∧ AreApart " ," parts ∧
      spellFlags " ," parts = " ,-a,\t,--b=c\u3000" ∧
      flagsOf (.text " ,-a,\t,--b=c\u3000") = .ok ["-a", "--b=c"] ∧
      flagsOf (.list [.text "-a", .text "--b=c"]) = .ok ["-a", "--b=c"] := by
  intro parts
  have flags : ∀ part ∈ parts, IsWord separatesFlags part.1.toList := by
    simp [parts, isWord_iff, separatesFlags, isBlank]
  have front : IsGap separatesFlags " ,".toList := by simp [IsGap, separatesFlags, isBlank]
  have behind : ∀ part ∈ parts, IsGap separatesFlags part.2.toList := by
    simp [parts, IsGap, separatesFlags, isBlank]
  have apart : AreApart " ," parts := ⟨front, behind, by decide⟩
  obtain ⟨ofText, ofParts⟩ := flags_are_runs_and_read_back
  have spelled := ofParts " ," parts flags apart
  obtain ⟨found, read, -, -, -, listed⟩ := ofText (spellFlags " ," parts)
  cases read.symm.trans spelled
  exact ⟨flags, apart, by decide, spelled, listed⟩

end GoMetadata.Settings
