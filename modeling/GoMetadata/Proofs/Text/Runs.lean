import GoMetadata.Proofs.Text.Basic
import Mathlib.Data.List.Basic
import Mathlib.Data.List.TakeWhile
import Mathlib.Tactic.MkIffOfInductiveProp

/-!
The runs of a text are all of its longest stretches without a separator, in order. A text is cut into
gaps of separators and words in one way only, so any words come back as runs, whatever the gaps
between them are.
-/

namespace GoMetadata.Text

def IsGap (separates : Char → Bool) (text : List Char) : Prop :=
  ∀ c ∈ text, separates c = true

@[mk_iff]
structure IsWord (separates : Char → Bool) (text : List Char) : Prop where
  nonempty : text ≠ []
  plain : ∀ c ∈ text, separates c = false

/-- No word goes on here: the text is at its end or begins with a separator. -/
def Breaks (separates : Char → Bool) (text : List Char) : Prop :=
  ∀ c ∈ text.head?, separates c = true

/-- A longest stretch without a separator, with the number of characters before it. It can be made
longer neither to the front nor to the back. -/
structure IsRunAt (separates : Char → Bool) (text : List Char) (start : Nat) (run : List Char) :
    Prop where
  isWord : IsWord separates run
  longest : ∃ before after, text = before ++ (run ++ after) ∧ before.length = start ∧
    (∀ c ∈ before.getLast?, separates c = true) ∧ Breaks separates after

def AreRuns (separates : Char → Bool) (text : List Char) (words : List (List Char)) : Prop :=
  ∃ places : List (Nat × List Char), places.map Prod.snd = words ∧
    places.Pairwise (fun place later => place.1 < later.1) ∧
    ∀ start word, (start, word) ∈ places ↔ IsRunAt separates text start word

/-- Texts as gaps and words, a gap that is not empty between each two words. -/
inductive Consists (separates : Char → Bool) : List Char → List (List Char) → Prop where
  | gap {gap : List Char} : IsGap separates gap → Consists separates gap []
  | word {gap word rest : List Char} {words : List (List Char)} : IsGap separates gap →
      IsWord separates word → Breaks separates rest → Consists separates rest words →
      Consists separates (gap ++ (word ++ rest)) (word :: words)

/-- What stands before, between and after gaps that are as long as they can be. -/
def cutAtGaps (separates : Char → Bool) : List Char → List (List Char)
  | [] => [[]]
  | c :: rest =>
    if separates c then [] :: cutAtGaps separates (rest.dropWhile separates)
    else match cutAtGaps separates rest with
      | [] => [[c]]
      | piece :: more => (c :: piece) :: more
termination_by text => text.length
decreasing_by
  · exact Nat.lt_succ_of_le (List.length_dropWhile_le ..)
  · exact Nat.lt_succ_self _

variable {separates : Char → Bool} {gap word rest text : List Char}

section Runs

theorem runs_append_cons {c : Char} (separating : separates c = true) (before after : List Char) :
    runs separates (before ++ c :: after) = runs separates before ++ runs separates after := by
  rw [runs, pieces_append_cons separating, List.filter_append]
  rfl

theorem runs_cons {c : Char} (separating : separates c = true) (rest : List Char) :
    runs separates (c :: rest) = runs separates rest :=
  runs_append_cons separating [] rest

theorem runs_gap_append (isGap : IsGap separates gap) (rest : List Char) :
    runs separates (gap ++ rest) = runs separates rest := by
  induction gap with
  | nil => rfl
  | cons c gap ih =>
    obtain ⟨head, tail⟩ := List.forall_mem_cons.1 isGap
    rw [List.cons_append, runs_cons head, ih tail]

theorem runs_gap (isGap : IsGap separates gap) : runs separates gap = [] := by
  have same := runs_gap_append isGap []
  rwa [List.append_nil] at same

theorem runs_append_gap (isGap : IsGap separates gap) (text : List Char) :
    runs separates (text ++ gap) = runs separates text := by
  cases gap with
  | nil => rw [List.append_nil]
  | cons c gap =>
    obtain ⟨head, tail⟩ := List.forall_mem_cons.1 isGap
    rw [runs_append_cons head, runs_gap tail, List.append_nil]

theorem runs_word_append (isWord : IsWord separates word) (breaks : Breaks separates rest) :
    runs separates (word ++ rest) = word :: runs separates rest := by
  have alone : runs separates word = [word] := by
    rw [runs, pieces_eq_singleton isWord.plain,
      List.filter_cons_of_pos (by simpa using isWord.nonempty)]
    rfl
  cases rest with
  | nil =>
    rw [List.append_nil, alone]
    rfl
  | cons c rest =>
    have separating : separates c = true := breaks c rfl
    rw [runs_append_cons separating, alone, runs_cons separating]
    rfl

theorem isWord_of_mem_runs (found : word ∈ runs separates text) : IsWord separates word := by
  obtain ⟨piece, full⟩ := List.mem_filter.1 found
  exact ⟨by simpa using full, fun _ => not_separates_of_mem_pieces piece⟩

end Runs

section Breaking

theorem IsGap.breaks (isGap : IsGap separates gap) : Breaks separates gap :=
  fun _ first => isGap _ (List.mem_of_head? first)

theorem IsGap.append_breaks (isGap : IsGap separates gap) (full : gap ≠ []) (rest : List Char) :
    Breaks separates (gap ++ rest) := by
  cases gap with
  | nil => exact absurd rfl full
  | cons c gap => exact fun _ first => isGap.breaks _ first

theorem takeWhile_word_append (isWord : IsWord separates word) (breaks : Breaks separates rest) :
    (word ++ rest).takeWhile (fun c => !separates c) = word := by
  rw [List.takeWhile_append_of_pos fun c inside => by rw [isWord.plain c inside]; rfl]
  cases rest with
  | nil => exact List.append_nil word
  | cons c rest =>
    have separating : separates c = true := breaks c rfl
    rw [List.takeWhile_cons_of_neg (by simp [separating]), List.append_nil]

end Breaking

section Consisting

theorem Consists.exists_cons {words : List (List Char)} (consists : Consists separates text words)
    (c : Char) : ∃ more, Consists separates (c :: text) more := by
  cases separating : separates c with
  | true =>
    cases consists with
    | gap isGap => exact ⟨[], .gap (List.forall_mem_cons.2 ⟨separating, isGap⟩)⟩
    | word isGap isWord breaks rest =>
      exact ⟨_, .word (List.forall_mem_cons.2 ⟨separating, isGap⟩) isWord breaks rest⟩
  | false =>
    have none : IsGap separates [] := List.forall_mem_nil _
    have single : IsWord separates [c] := ⟨List.cons_ne_nil _ _, by simpa using separating⟩
    cases consists with
    | gap isGap => exact ⟨_, .word none single isGap.breaks (.gap isGap)⟩
    | @word gap word rest words isGap isWord breaks consists =>
      cases gap with
      | nil =>
        have longer : IsWord separates (c :: word) :=
          ⟨List.cons_ne_nil _ _, List.forall_mem_cons.2 ⟨separating, isWord.plain⟩⟩
        exact ⟨_, .word none longer breaks consists⟩
      | cons d gap =>
        have ends := isGap.append_breaks (List.cons_ne_nil d gap) (word ++ rest)
        exact ⟨_, .word none single ends (.word isGap isWord breaks consists)⟩

theorem Consists.runs_eq {words : List (List Char)} (consists : Consists separates text words) :
    runs separates text = words := by
  induction consists with
  | gap isGap => exact runs_gap isGap
  | word isGap isWord breaks _ ih => rw [runs_gap_append isGap, runs_word_append isWord breaks, ih]

theorem consists_runs (separates : Char → Bool) (text : List Char) :
    Consists separates text (runs separates text) := by
  have exists_words : ∃ words, Consists separates text words := by
    induction text with
    | nil => exact ⟨[], .gap (List.forall_mem_nil _)⟩
    | cons c text ih => exact ih.elim fun _ consists => consists.exists_cons c
  obtain ⟨words, consists⟩ := exists_words
  rw [consists.runs_eq]
  exact consists

end Consisting

section Places

variable {start place : Nat} {run : List Char}

theorem IsRunAt.exists_plain (isRun : IsRunAt separates text start run) :
    ∃ c, text[start]? = some c ∧ separates c = false := by
  obtain ⟨isWord, before, after, rfl, rfl, -⟩ := isRun
  cases run with
  | nil => exact absurd rfl isWord.nonempty
  | cons c run => exact ⟨c, by simp, isWord.plain c List.mem_cons_self⟩

theorem IsRunAt.exists_separator (isRun : IsRunAt separates text (place + 1) run) :
    ∃ c, text[place]? = some c ∧ separates c = true := by
  obtain ⟨-, before, after, rfl, length, front, -⟩ := isRun
  have inside : place < before.length := by omega
  have last : before.getLast? = some before[place] := by
    rw [List.getLast?_eq_getElem?, length, Nat.add_sub_cancel, List.getElem?_eq_getElem inside]
  refine ⟨before[place], ?_, front _ last⟩
  rw [List.getElem?_append_left inside, List.getElem?_eq_getElem inside]

theorem IsRunAt.of_append {front : List Char}
    (isRun : IsRunAt separates (front ++ text) (front.length + place) run) :
    IsRunAt separates text place run := by
  obtain ⟨isWord, before, after, same, length, ends, behind⟩ := isRun
  have shorter : front.length ≤ before.length := by omega
  obtain ⟨between, rfl⟩ : front <+: before :=
    List.prefix_of_prefix_length_le ⟨text, same⟩ ⟨run ++ after, rfl⟩ shorter
  rw [List.append_assoc, List.append_cancel_left_eq] at same
  rw [List.length_append, Nat.add_left_cancel_iff] at length
  refine ⟨isWord, between, after, same, length, fun c last => ends c ?_, behind⟩
  rw [List.getLast?_append, Option.mem_def.1 last]
  rfl

/-- A run stays one behind more text, unless it begins the text and no separator is put there. -/
theorem IsRunAt.append (isRun : IsRunAt separates text place run) {front : List Char}
    (apart : place = 0 → ∀ c ∈ front.getLast?, separates c = true) :
    IsRunAt separates (front ++ text) (front.length + place) run := by
  obtain ⟨isWord, before, after, rfl, rfl, ends, behind⟩ := isRun
  refine ⟨isWord, front ++ before, after, (List.append_assoc ..).symm, List.length_append, ?_,
    behind⟩
  cases before with
  | nil =>
    rw [List.append_nil]
    exact apart rfl
  | cons c before =>
    rw [List.getLast?_append_cons]
    exact ends

theorem isRunAt_gap_append_iff (isGap : IsGap separates gap) :
    IsRunAt separates (gap ++ text) start run ↔
      ∃ place, start = gap.length + place ∧ IsRunAt separates text place run := by
  constructor
  · intro isRun
    obtain ⟨c, here, plain⟩ := isRun.exists_plain
    -- A run does not begin inside the gap, where there are separators only.
    have later : gap.length ≤ start := by
      rw [← Nat.not_lt]
      intro inside
      rw [List.getElem?_append_left inside] at here
      rw [isGap c (List.mem_of_getElem? here)] at plain
      cases plain
    obtain ⟨place, rfl⟩ := Nat.exists_eq_add_of_le later
    exact ⟨place, rfl, isRun.of_append⟩
  · rintro ⟨place, rfl, isRun⟩
    exact isRun.append fun _ c last => isGap c (List.mem_of_getLast? last)

theorem IsRunAt.eq_word (isRun : IsRunAt separates (word ++ rest) 0 run)
    (isWord : IsWord separates word) (breaks : Breaks separates rest) : run = word := by
  obtain ⟨isRun, before, after, same, length, -, behind⟩ := isRun
  rw [List.eq_nil_of_length_eq_zero length, List.nil_append] at same
  rw [← takeWhile_word_append isRun behind, ← same, takeWhile_word_append isWord breaks]

theorem isRunAt_word_append_iff (isWord : IsWord separates word) (breaks : Breaks separates rest) :
    IsRunAt separates (word ++ rest) start run ↔
      start = 0 ∧ run = word ∨
        ∃ place, start = word.length + place ∧ IsRunAt separates rest place run := by
  constructor
  · intro isRun
    cases start with
    | zero => exact .inl ⟨rfl, isRun.eq_word isWord breaks⟩
    | succ before =>
      obtain ⟨c, here, separating⟩ := isRun.exists_separator
      -- The separator in front of a later run is not inside the word.
      have later : word.length ≤ before := by
        rw [← Nat.not_lt]
        intro inside
        rw [List.getElem?_append_left inside] at here
        rw [isWord.plain c (List.mem_of_getElem? here)] at separating
        cases separating
      obtain ⟨place, rfl⟩ := Nat.exists_eq_add_of_le later
      exact .inr ⟨place + 1, rfl, isRun.of_append⟩
  · rintro (⟨rfl, rfl⟩ | ⟨place, rfl, isRun⟩)
    · exact ⟨isWord, [], rest, rfl, rfl, nofun, breaks⟩
    · refine isRun.append ?_
      rintro rfl
      -- The rest begins with a separator, so no run begins there.
      obtain ⟨c, here, plain⟩ := isRun.exists_plain
      rw [← List.head?_eq_getElem?] at here
      rw [breaks c here] at plain
      cases plain

def further (length : Nat) (places : List (Nat × List Char)) : List (Nat × List Char) :=
  places.map fun place => (length + place.1, place.2)

theorem mem_further_iff {length : Nat} {places : List (Nat × List Char)} :
    (start, run) ∈ further length places ↔
      ∃ place, start = length + place ∧ (place, run) ∈ places := by
  rw [further, List.mem_map]
  constructor
  · rintro ⟨⟨place, found⟩, inside, same⟩
    cases same
    exact ⟨place, rfl, inside⟩
  · rintro ⟨place, rfl, inside⟩
    exact ⟨(place, run), inside, rfl⟩

theorem map_snd_further (length : Nat) (places : List (Nat × List Char)) :
    (further length places).map Prod.snd = places.map Prod.snd := by
  rw [further, List.map_map]
  rfl

theorem pairwise_further {length : Nat} {places : List (Nat × List Char)}
    (ordered : places.Pairwise fun place later => place.1 < later.1) :
    (further length places).Pairwise fun place later => place.1 < later.1 :=
  List.pairwise_map.2 (ordered.imp (Nat.add_lt_add_left · length))

theorem areRuns_nil : AreRuns separates [] [] := by
  refine ⟨[], rfl, .nil, fun start run => ⟨nofun, fun isRun => ?_⟩⟩
  obtain ⟨c, here, -⟩ := isRun.exists_plain
  cases here

theorem AreRuns.gap_append {words : List (List Char)} (areRuns : AreRuns separates text words)
    (isGap : IsGap separates gap) : AreRuns separates (gap ++ text) words := by
  obtain ⟨places, rfl, ordered, all⟩ := areRuns
  refine ⟨further gap.length places, map_snd_further .., pairwise_further ordered, fun _ _ => ?_⟩
  simp only [mem_further_iff, isRunAt_gap_append_iff isGap, all]

theorem AreRuns.word_append {words : List (List Char)} (areRuns : AreRuns separates rest words)
    (isWord : IsWord separates word) (breaks : Breaks separates rest) :
    AreRuns separates (word ++ rest) (word :: words) := by
  obtain ⟨places, rfl, ordered, all⟩ := areRuns
  refine ⟨(0, word) :: further word.length places, ?_, ?_, fun start run => ?_⟩
  · rw [List.map_cons, map_snd_further]
  · refine List.pairwise_cons.2 ⟨fun later member => ?_, pairwise_further ordered⟩
    obtain ⟨place, same, -⟩ := mem_further_iff.1 member
    have positive := List.length_pos_iff.2 isWord.nonempty
    show 0 < later.1
    omega
  · rw [List.mem_cons, Prod.mk.injEq, mem_further_iff, isRunAt_word_append_iff isWord breaks]
    simp only [all]

theorem Consists.areRuns {words : List (List Char)} (consists : Consists separates text words) :
    AreRuns separates text words := by
  induction consists with
  | @gap gap isGap =>
    rw [← List.append_nil gap]
    exact areRuns_nil.gap_append isGap
  | word isGap isWord breaks _ ih => exact (ih.word_append isWord breaks).gap_append isGap

theorem areRuns_runs (separates : Char → Bool) (text : List Char) :
    AreRuns separates text (runs separates text) :=
  (consists_runs separates text).areRuns

end Places

section Cutting

theorem exists_cutAtGaps (separates : Char → Bool) (text : List Char) :
    ∃ piece more others, cutAtGaps separates text = piece :: more ∧
      pieces separates text = piece :: others ∧ more.filter (· ≠ []) = others.filter (· ≠ []) := by
  fun_induction cutAtGaps separates text with
  | case1 => exact ⟨[], [], [], rfl, rfl, rfl⟩
  | case2 c rest separating ih =>
    obtain ⟨piece, more, others, cut, same, kept⟩ := ih
    refine ⟨[], _, pieces separates rest, rfl, by rw [pieces, if_pos separating], ?_⟩
    have isGap : IsGap separates (rest.takeWhile separates) := fun _ => List.mem_takeWhile_imp
    calc
      (cutAtGaps separates (rest.dropWhile separates)).filter (· ≠ []) =
          runs separates (rest.dropWhile separates) := by
        rw [runs, cut, same, List.filter_cons, List.filter_cons, kept]
      _ = runs separates (rest.takeWhile separates ++ rest.dropWhile separates) :=
        (runs_gap_append isGap _).symm
      _ = runs separates rest := by rw [List.takeWhile_append_dropWhile]
  | case3 c rest plain none ih =>
    obtain ⟨piece, more, others, cut, -, -⟩ := ih
    rw [none] at cut
    cases cut
  | case4 c rest plain first later found ih =>
    obtain ⟨piece, more, others, cut, same, kept⟩ := ih
    rw [found] at cut
    cases cut
    refine ⟨c :: first, later, others, rfl, ?_, kept⟩
    rw [pieces, if_neg plain, same]

theorem filter_cutAtGaps (separates : Char → Bool) (text : List Char) :
    (cutAtGaps separates text).filter (· ≠ []) = runs separates text := by
  obtain ⟨piece, more, others, cut, same, kept⟩ := exists_cutAtGaps separates text
  rw [runs, cut, same, List.filter_cons, List.filter_cons, kept]

end Cutting

end GoMetadata.Text
