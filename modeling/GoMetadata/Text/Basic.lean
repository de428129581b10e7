/-!
Texts as lists of characters: hexadecimal numerals, white space and lines, pieces between
separators, and sets of texts in ascending order.
-/

namespace GoMetadata.Text

def hexText : Nat → Nat → List Char
  | 0, _ => []
  | width + 1, number => hexText width (number / 16) ++ [Nat.digitChar (number % 16)]

theorem length_hexText (width number : Nat) : (hexText width number).length = width := by
  induction width generalizing number with
  | zero => rfl
  | succ width ih => simp [hexText, ih]

def hexValue? (c : Char) : Option Nat :=
  if '0' ≤ c ∧ c ≤ '9' then some (c.toNat - 48)
  else if 'a' ≤ c ∧ c ≤ 'f' then some (c.toNat - 87)
  else if 'A' ≤ c ∧ c ≤ 'F' then some (c.toNat - 55)
  else none

def hexNumber? (digits : List Char) : Option Nat :=
  digits.foldl (fun number c => do return 16 * (← number) + (← hexValue? c)) (some 0)

/-! White space and lines -/

/-- White space of Unicode together with the four information separators. -/
def isBlank (c : Char) : Bool :=
  let code := c.toNat
  (9 ≤ code && code ≤ 13) || (28 ≤ code && code ≤ 32) || code == 0x85 || code == 0xa0 ||
    code == 0x1680 || (0x2000 ≤ code && code ≤ 0x200a) || code == 0x2028 || code == 0x2029 ||
    code == 0x202f || code == 0x205f || code == 0x3000

def isLineEnd (c : Char) : Bool :=
  let code := c.toNat
  (10 ≤ code && code ≤ 13) || (28 ≤ code && code ≤ 30) || code == 0x85 || code == 0x2028 ||
    code == 0x2029

def stripChars (text : List Char) : List Char :=
  ((text.dropWhile isBlank).reverse.dropWhile isBlank).reverse

def strip (text : String) : String :=
  String.ofList (stripChars text.toList)

def isBlankText (text : String) : Bool :=
  text.toList.all isBlank

/-- The lines of a text without their ends. A carriage return and the line feed after it end one
line together, and a text that ends with a line end has no empty line after it. -/
def splitLines : List Char → List (List Char)
  | [] => []
  | '\r' :: '\n' :: rest => [] :: splitLines rest
  | c :: rest =>
    if isLineEnd c then [] :: splitLines rest
    else match splitLines rest with
      | [] => [[c]]
      | line :: lines => (c :: line) :: lines

def contentLines (text : String) : List String :=
  ((splitLines text.toList).map fun line => String.ofList (stripChars line)).filter (· ≠ "")

def unifyLineEnds : List Char → List Char
  | [] => []
  | '\r' :: '\n' :: rest => '\n' :: unifyLineEnds rest
  | '\r' :: rest => '\n' :: unifyLineEnds rest
  | c :: rest => c :: unifyLineEnds rest

/-!
Cutting text at separators. The pieces, with the separators put back between them, are the text
again; the runs are the pieces that are not empty.
-/

def pieces (separates : Char → Bool) : List Char → List (List Char)
  | [] => [[]]
  | c :: rest =>
    if separates c then [] :: pieces separates rest
    else match pieces separates rest with
      | [] => [[c]]
      | piece :: more => (c :: piece) :: more

def runs (separates : Char → Bool) (text : List Char) : List (List Char) :=
  (pieces separates text).filter (· ≠ [])

theorem pieces_ne_nil (separates : Char → Bool) (text : List Char) :
    pieces separates text ≠ [] := by
  cases text with
  | nil => simp [pieces]
  | cons c rest =>
    rw [pieces]
    split
    · simp
    · split <;> simp

theorem not_separates_of_mem_pieces {separates : Char → Bool} {text piece : List Char} {c : Char}
    (found : piece ∈ pieces separates text) (inside : c ∈ piece) : separates c = false := by
  induction text generalizing piece with
  | nil => simp_all [pieces]
  | cons d rest ih =>
    rw [pieces] at found
    split at found
    next =>
      rcases List.mem_cons.1 found with rfl | later
      · simp at inside
      · exact ih later inside
    next plain =>
      split at found
      next none => exact absurd none (pieces_ne_nil separates rest)
      next first more same =>
        rcases List.mem_cons.1 found with rfl | later
        · rcases List.mem_cons.1 inside with rfl | inner
          · simpa using plain
          · exact ih (same ▸ List.mem_cons_self) inner
        · exact ih (same ▸ List.mem_cons_of_mem _ later) inside

/-!
Texts in strictly ascending order, by code points. Sorting drops repetitions, so two lists with
the same members sort to the same list.
-/

def insertAscending (text : String) : List String → List String
  | [] => [text]
  | head :: rest =>
    if text < head then text :: head :: rest
    else if text = head then head :: rest
    else head :: insertAscending text rest

def sortDistinct (texts : List String) : List String :=
  texts.foldr insertAscending []

theorem mem_insertAscending {text other : String} {texts : List String} :
    other ∈ insertAscending text texts ↔ other = text ∨ other ∈ texts := by
  induction texts with
  | nil => simp [insertAscending]
  | cons head rest ih =>
    rw [insertAscending]
    split
    · simp
    · split
      next same => simp [same]
      next => simp only [List.mem_cons, ih]; exact or_left_comm

theorem mem_sortDistinct {text : String} {texts : List String} :
    text ∈ sortDistinct texts ↔ text ∈ texts := by
  induction texts with
  | nil => simp [sortDistinct]
  | cons head rest ih =>
    rw [List.mem_cons, ← ih]
    exact mem_insertAscending

end GoMetadata.Text
