import GoMetadata.Proofs.Text.Basic
import GoMetadata.Text.Basic
import GoMetadata.Text.Quoted
import Mathlib.Data.List.TakeWhile

/-!
Texts on one line, and the lines of a text that are not blank. No line end is printable, so quoted
text stays on one line whatever it quotes. Blanks around a text are in none of its stripped lines.
-/

namespace GoMetadata.Text

def SingleLine (text : String) : Prop :=
  ∀ c ∈ text.toList, isLineEnd c = false

instance (text : String) : Decidable (SingleLine text) :=
  decidable_of_iff ((text.toList.all fun c => !isLineEnd c) = true) (by simp [SingleLine])

section SingleLines

variable {before after text : String}

@[simp]
theorem singleLine_append :
    SingleLine (before ++ after) ↔ SingleLine before ∧ SingleLine after := by
  rw [SingleLine, String.toList_append]
  exact List.forall_mem_append

theorem SingleLine.append (first : SingleLine before) (second : SingleLine after) :
    SingleLine (before ++ after) :=
  singleLine_append.2 ⟨first, second⟩

@[simp]
theorem singleLine_ofList {chars : List Char} :
    SingleLine (String.ofList chars) ↔ ∀ c ∈ chars, isLineEnd c = false := by
  rw [SingleLine, String.toList_ofList]

theorem isLineEnd_of_isDigit {c : Char} (digit : c.isDigit = true) : isLineEnd c = false := by
  have bounds : 48 ≤ c.toNat ∧ c.toNat ≤ 57 := by
    rwa [Char.isDigit_iff_toNat] at digit
  rw [isLineEnd]
  simp
  omega

@[simp]
theorem singleLine_repr_nat (number : Nat) : SingleLine number.repr := by
  intro c member
  rw [Nat.toList_repr] at member
  exact isLineEnd_of_isDigit (Nat.isDigit_of_mem_toDigits (by decide) (by decide) member)

@[simp]
theorem singleLine_repr_int (number : Int) : SingleLine number.repr := by
  rw [Int.repr_eq_if]
  split
  · exact singleLine_repr_nat _
  · exact .append (by decide) (singleLine_repr_nat _)

theorem mem_of_mem_intercalate {separator : List Char} {parts : List (List Char)} {c : Char}
    (member : c ∈ separator.intercalate parts) : c ∈ separator ∨ ∃ part ∈ parts, c ∈ part := by
  induction parts with
  | nil => cases member
  | cons part rest ih =>
    cases rest with
    | nil =>
      rw [List.intercalate_singleton] at member
      exact .inr ⟨part, List.mem_cons_self, member⟩
    | cons next more =>
      rw [List.intercalate_cons_cons, List.mem_append, List.mem_append] at member
      rcases member with (inside | between) | later
      · exact .inr ⟨part, List.mem_cons_self, inside⟩
      · exact .inl between
      · rcases ih later with between | ⟨other, found, inside⟩
        · exact .inl between
        · exact .inr ⟨other, List.mem_cons_of_mem part found, inside⟩

theorem singleLine_intercalate {separator : String} {texts : List String}
    (between : SingleLine separator) (all : ∀ text ∈ texts, SingleLine text) :
    SingleLine (separator.intercalate texts) := by
  intro c member
  rw [String.toList_intercalate] at member
  rcases mem_of_mem_intercalate member with inside | ⟨part, found, inside⟩
  · exact between c inside
  · obtain ⟨text, given, rfl⟩ := List.mem_map.1 found
    exact all text given c inside

end SingleLines

section Quoting

theorem any_unprintableRanges {code : Nat}
    (control : code < 0x20 ∨ code = 0x85 ∨ code = 0x2028 ∨ code = 0x2029) :
    (unprintableRanges.any fun range => range.1 ≤ code && code ≤ range.2) = true := by
  rcases control with low | rfl | rfl | rfl
  · revert code
    decide +kernel
  · decide +kernel
  · decide +kernel
  · decide +kernel

theorem isLineEnd_of_isPrintable {c : Char} (printable : isPrintable c = true) :
    isLineEnd c = false := by
  rw [← Bool.not_eq_true]
  intro ends
  simp only [isLineEnd, Bool.or_eq_true, Bool.and_eq_true, decide_eq_true_eq, beq_iff_eq] at ends
  rw [isPrintable, any_unprintableRanges (by omega)] at printable
  simp only [Bool.or_eq_true, Bool.and_eq_true, decide_eq_true_eq, Bool.not_true,
    Bool.false_eq_true, or_false] at printable
  omega

theorem isLineEnd_digitChar : ∀ digit < 16, isLineEnd (Nat.digitChar digit) = false := by
  decide

theorem isLineEnd_of_mem_hexText {width number : Nat} :
    ∀ c ∈ hexText width number, isLineEnd c = false := by
  induction width generalizing number with
  | zero => nofun
  | succ width ih =>
    rw [hexText, List.forall_mem_append, List.forall_mem_singleton]
    exact ⟨ih, isLineEnd_digitChar _ (Nat.mod_lt number (by decide))⟩

theorem isLineEnd_quoteFor (text : List Char) : isLineEnd (quoteFor text) = false := by
  unfold quoteFor
  split <;> rfl

theorem isLineEnd_of_mem_escape {mark : Char} {rest : List Char} (plain : isLineEnd mark = false)
    (all : ∀ c ∈ rest, isLineEnd c = false) :
    ∀ c ∈ '\\' :: mark :: rest, isLineEnd c = false :=
  List.forall_mem_cons.2 ⟨rfl, List.forall_mem_cons.2 ⟨plain, all⟩⟩

theorem isLineEnd_of_mem_quoteChar {quote : Char} (plain : isLineEnd quote = false) (c : Char) :
    ∀ d ∈ quoteChar quote c, isLineEnd d = false := by
  unfold quoteChar
  split
  next mark =>
    rcases mark with rfl | rfl
    · exact isLineEnd_of_mem_escape plain (List.forall_mem_nil _)
    · exact isLineEnd_of_mem_escape rfl (List.forall_mem_nil _)
  iterate 3
    split
    · exact isLineEnd_of_mem_escape rfl (List.forall_mem_nil _)
  split
  next printable =>
    rw [List.forall_mem_singleton]
    exact isLineEnd_of_isPrintable printable
  iterate 2
    split
    · exact isLineEnd_of_mem_escape rfl isLineEnd_of_mem_hexText
  exact isLineEnd_of_mem_escape rfl isLineEnd_of_mem_hexText

@[simp]
theorem singleLine_quoted (text : String) : SingleLine (quoted text) := by
  refine singleLine_ofList.2 fun c member => ?_
  have plain := isLineEnd_quoteFor text.toList
  rw [quoteChars, List.cons_append, List.mem_cons, List.mem_append, List.mem_singleton,
    List.mem_flatMap] at member
  rcases member with rfl | ⟨d, -, inside⟩ | rfl
  · exact plain
  · exact isLineEnd_of_mem_quoteChar plain d c inside
  · exact plain

example : quoted "it's\n" = "\"it's\\n\"" := by
  decide +kernel

@[simp]
theorem singleLine_quotedList (texts : List String) : SingleLine (quotedList texts) := by
  have inside : SingleLine (", ".intercalate (texts.map quoted)) := by
    refine singleLine_intercalate (by decide) fun text member => ?_
    obtain ⟨original, -, rfl⟩ := List.mem_map.1 member
    exact singleLine_quoted original
  exact .append (.append (by decide) inside) (by decide)

end Quoting

section Stripping

theorem mem_of_mem_stripChars {text : List Char} {c : Char} (member : c ∈ stripChars text) :
    c ∈ text := by
  rw [stripChars, List.mem_reverse] at member
  have inside := (List.dropWhile_sublist _).subset member
  exact (List.dropWhile_sublist _).subset (List.mem_reverse.1 inside)

theorem stripChars_cons {c : Char} (blank : isBlank c = true) (text : List Char) :
    stripChars (c :: text) = stripChars text := by
  rw [stripChars, List.dropWhile_cons_of_pos blank]
  rfl

theorem stripChars_concat {c : Char} (blank : isBlank c = true) (text : List Char) :
    stripChars (text ++ [c]) = stripChars text := by
  induction text with
  | nil => exact stripChars_cons blank []
  | cons d rest ih =>
    by_cases head : isBlank d = true
    · rw [List.cons_append, stripChars_cons head, stripChars_cons head, ih]
    · rw [stripChars, stripChars, List.cons_append, List.dropWhile_cons_of_neg head,
        List.dropWhile_cons_of_neg head, ← List.cons_append, List.reverse_concat,
        List.dropWhile_cons_of_pos blank]

theorem stripChars_eq_nil_iff {text : List Char} :
    stripChars text = [] ↔ ∀ c ∈ text, isBlank c = true := by
  constructor
  · intro none
    rw [stripChars, List.reverse_eq_nil_iff, List.dropWhile_eq_nil_iff] at none
    refine List.dropWhile_eq_nil_iff.1 (Classical.byContradiction fun some => ?_)
    have first := List.head_dropWhile_not isBlank some
    rw [none _ (List.mem_reverse.2 (List.head_mem some))] at first
    cases first
  · intro blank
    rw [stripChars, List.dropWhile_eq_nil_iff.2 blank]
    rfl

theorem stripChars_of_plain {text : List Char} (plain : ∀ c ∈ text, isBlank c = false) :
    stripChars text = text := by
  have kept : ∀ {text : List Char}, (∀ c ∈ text, isBlank c = false) →
      text.dropWhile isBlank = text := by
    intro text plain
    cases text with
    | nil => rfl
    | cons c rest => exact List.dropWhile_cons_of_neg (by simp [plain c List.mem_cons_self])
  rw [stripChars, kept plain, kept fun c inside => plain c (List.mem_reverse.1 inside),
    List.reverse_reverse]

theorem exists_stripChars (text : List Char) :
    ∃ front back, text = front ++ (stripChars text ++ back) ∧
      (∀ c ∈ front, isBlank c = true) ∧ ∀ c ∈ back, isBlank c = true := by
  let back := (text.dropWhile isBlank).reverse.takeWhile isBlank
  have ends : text.dropWhile isBlank = stripChars text ++ back.reverse := by
    rw [stripChars, ← List.reverse_append, List.takeWhile_append_dropWhile, List.reverse_reverse]
  refine ⟨text.takeWhile isBlank, back.reverse, ?_, fun _ => List.mem_takeWhile_imp,
    fun _ inside => List.mem_takeWhile_imp (List.mem_reverse.1 inside)⟩
  rw [← ends, List.takeWhile_append_dropWhile]

end Stripping

section Lines

def kept (lines : List (List Char)) : List (List Char) :=
  (lines.map stripChars).filter (· ≠ [])

theorem kept_append (before after : List (List Char)) :
    kept (before ++ after) = kept before ++ kept after := by
  rw [kept, List.map_append, List.filter_append]
  rfl

theorem kept_cons_nil (lines : List (List Char)) : kept ([] :: lines) = kept lines :=
  rfl

theorem kept_cons_congr {line other : List Char} (same : stripChars line = stripChars other)
    {lines more : List (List Char)} (rest : kept lines = kept more) :
    kept (line :: lines) = kept (other :: more) := by
  have single : kept [line] = kept [other] := by
    rw [kept, kept, List.map_singleton, List.map_singleton, same]
  calc
    kept (line :: lines) = kept [line] ++ kept lines := kept_append [line] lines
    _ = kept [other] ++ kept more := by rw [single, rest]
    _ = kept (other :: more) := (kept_append [other] more).symm

/-- Lines begin as the pieces between line ends do, and go on with the same but for empty ones. -/
def LinesFollowPieces (text : List Char) : Prop :=
  text = [] ∨ ∃ line lines more, splitLines text = line :: lines ∧
    pieces isLineEnd text = line :: more ∧ kept lines = kept more

theorem LinesFollowPieces.kept_eq {text : List Char} (follow : LinesFollowPieces text) :
    kept (splitLines text) = kept (pieces isLineEnd text) := by
  rcases follow with rfl | ⟨line, lines, more, first, second, same⟩
  · rfl
  · rw [first, second]
    exact kept_cons_congr rfl same

theorem linesFollowPieces (text : List Char) : LinesFollowPieces text := by
  induction text using splitLines.induct with
  | case1 => exact .inl rfl
  | case2 rest ih =>
    refine .inr ⟨[], splitLines rest, [] :: pieces isLineEnd rest, splitLines.eq_2 rest, rfl, ?_⟩
    exact ih.kept_eq
  | case3 c rest single ends ih =>
    refine .inr ⟨[], splitLines rest, pieces isLineEnd rest, ?_, ?_, ih.kept_eq⟩
    · rw [splitLines.eq_3 c rest single, if_pos ends]
    · rw [pieces, if_pos ends]
  | case4 c rest single plain none ih =>
    rcases ih with rfl | ⟨line, lines, more, first, -, -⟩
    · refine .inr ⟨[c], [], [], ?_, ?_, rfl⟩
      · rw [splitLines.eq_3 c [] single, if_neg plain, none]
      · rw [pieces, if_neg plain]
        rfl
    · rw [none] at first
      cases first
  | case5 c rest single plain line lines split ih =>
    rcases ih with rfl | ⟨other, lines, more, first, second, same⟩
    · cases split
    · refine .inr ⟨c :: other, lines, more, ?_, ?_, same⟩
      · rw [splitLines.eq_3 c rest single, if_neg plain, first]
      · rw [pieces, if_neg plain, second]

theorem kept_splitLines (text : List Char) :
    kept (splitLines text) = kept (pieces isLineEnd text) :=
  (linesFollowPieces text).kept_eq

/-- The last line that is kept is the last that is not blank. -/
theorem kept_eq_nil_or_concat (lines : List (List Char)) :
    (kept lines = [] ∧ ∀ line ∈ lines, ∀ c ∈ line, isBlank c = true) ∨
      ∃ before line after, lines = before ++ line :: after ∧ (∃ c ∈ line, isBlank c = false) ∧
        (∀ line ∈ after, ∀ c ∈ line, isBlank c = true) ∧
        kept lines = kept before ++ [stripChars line] := by
  induction lines with
  | nil => exact .inl ⟨rfl, nofun⟩
  | cons line lines ih =>
    rcases ih with ⟨none, blank⟩ | ⟨before, last, after, rfl, content, blank, same⟩
    · by_cases content : ∀ c ∈ line, isBlank c = true
      · refine .inl ⟨?_, List.forall_mem_cons.2 ⟨content, blank⟩⟩
        rw [kept, List.map_cons, stripChars_eq_nil_iff.2 content]
        exact none
      · refine .inr ⟨[], line, lines, rfl, ?_, blank, ?_⟩
        · simpa using content
        · have some : stripChars line ≠ [] := fun none => content (stripChars_eq_nil_iff.1 none)
          rw [kept, List.map_cons, List.filter_cons_of_pos (by simpa using some)]
          exact congrArg _ none
    · refine .inr ⟨line :: before, last, after, rfl, content, blank, ?_⟩
      calc
        kept (line :: (before ++ last :: after)) =
            kept [line] ++ kept (before ++ last :: after) := kept_append [line] _
        _ = kept [line] ++ (kept before ++ [stripChars last]) := by rw [same]
        _ = kept [line] ++ kept before ++ [stripChars last] := (List.append_assoc ..).symm
        _ = kept (line :: before) ++ [stripChars last] := by rw [← kept_append]; rfl

theorem kept_pieces_cons {c : Char} (blank : isBlank c = true) (text : List Char) :
    kept (pieces isLineEnd (c :: text)) = kept (pieces isLineEnd text) := by
  rw [pieces]
  split
  · exact kept_cons_nil _
  · cases same : pieces isLineEnd text with
    | nil => exact absurd same (pieces_ne_nil isLineEnd text)
    | cons piece more => exact kept_cons_congr (stripChars_cons blank piece) rfl

theorem kept_pieces_concat {c : Char} (blank : isBlank c = true) (text : List Char) :
    kept (pieces isLineEnd (text ++ [c])) = kept (pieces isLineEnd text) := by
  cases ends : isLineEnd c with
  | true =>
    rw [pieces_append_cons ends, kept_append]
    exact List.append_nil _
  | false =>
    obtain ⟨before, last, same, longer⟩ := exists_pieces_concat ends text
    rw [same, longer, kept_append, kept_append]
    congr 1
    exact kept_cons_congr (stripChars_concat blank last) rfl

theorem kept_pieces_stripChars (text : List Char) :
    kept (pieces isLineEnd (stripChars text)) = kept (pieces isLineEnd text) := by
  have front (text : List Char) :
      kept (pieces isLineEnd (text.dropWhile isBlank)) = kept (pieces isLineEnd text) := by
    induction text with
    | nil => rfl
    | cons c rest ih =>
      by_cases blank : isBlank c = true
      · rw [List.dropWhile_cons_of_pos blank, ih, kept_pieces_cons blank]
      · rw [List.dropWhile_cons_of_neg blank]
  have back (text : List Char) :
      kept (pieces isLineEnd (text.dropWhile isBlank).reverse) =
        kept (pieces isLineEnd text.reverse) := by
    induction text with
    | nil => rfl
    | cons c rest ih =>
      by_cases blank : isBlank c = true
      · rw [List.dropWhile_cons_of_pos blank, ih, List.reverse_cons, kept_pieces_concat blank]
      · rw [List.dropWhile_cons_of_neg blank]
  rw [stripChars, back, List.reverse_reverse, front]

theorem contentLines_eq (text : String) :
    contentLines text = (kept (splitLines text.toList)).map String.ofList := by
  have empty (chars : List Char) :
      decide (String.ofList chars ≠ "") = decide (chars ≠ []) := by
    rw [decide_eq_decide, ne_eq, ne_eq, ← String.toList_inj, String.toList_ofList]
    rfl
  have split : (splitLines text.toList).map (fun line => String.ofList (stripChars line)) =
      ((splitLines text.toList).map stripChars).map String.ofList := by
    rw [List.map_map]
    rfl
  rw [contentLines, kept, split, List.filter_map]
  exact congrArg _ (List.filter_congr fun chars _ => empty chars)

/-- Blanks around a text are in none of its lines. -/
theorem contentLines_strip (text : String) : contentLines (strip text) = contentLines text := by
  rw [contentLines_eq, contentLines_eq, kept_splitLines, kept_splitLines, strip,
    String.toList_ofList, kept_pieces_stripChars]

theorem singleLine_of_mem_contentLines {text line : String} (member : line ∈ contentLines text) :
    SingleLine line := by
  rw [contentLines_eq, kept_splitLines] at member
  obtain ⟨chars, found, rfl⟩ := List.mem_map.1 member
  obtain ⟨piece, inside, rfl⟩ := List.mem_map.1 (List.mem_filter.1 found).1
  exact singleLine_ofList.2 fun c here =>
    not_separates_of_mem_pieces inside (mem_of_mem_stripChars here)

theorem splitLines_cons_of_plain {c : Char} (plain : isLineEnd c = false) (rest : List Char) :
    splitLines (c :: rest) =
      match splitLines rest with
      | [] => [[c]]
      | line :: lines => (c :: line) :: lines := by
  have single : ∀ more, c = '\r' → rest = '\n' :: more → False := by
    rintro more rfl -
    cases plain
  rw [splitLines.eq_3 c rest single, plain]
  rfl

theorem splitLines_concat_of_plain {text : List Char} (plain : ∀ c ∈ text, isLineEnd c = false) :
    splitLines (text ++ ['\n']) = [text] := by
  induction text with
  | nil => rfl
  | cons c rest ih =>
    obtain ⟨head, tail⟩ := List.forall_mem_cons.1 plain
    rw [List.cons_append, splitLines_cons_of_plain head, ih tail]

end Lines

end GoMetadata.Text
