import GoMetadata.Decimal
import GoMetadata.Json.Basic
import GoMetadata.Text.Basic

/-!
Reading JSON. The reader accepts the standard's texts and the names of the numbers that are not
finite; of equal keys in an object the last value counts. A text that is refused is refused at the
first character that cannot continue it, or where the unfinished part begins.
-/

namespace GoMetadata.Json

inductive Complaint where
  | value
  | propertyName
  | colon
  | comma
  | extraData
  | unterminated
  | controlCharacter
  | escape
  | unicodeEscape
  | byteOrderMark
  deriving DecidableEq, Repr

def Complaint.text : Complaint → String
  | value => "Expecting value"
  | propertyName => "Expecting property name enclosed in double quotes"
  | colon => "Expecting ':' delimiter"
  | comma => "Expecting ',' delimiter"
  | extraData => "Extra data"
  | unterminated => "Unterminated string starting at"
  | controlCharacter => "Invalid control character at"
  | escape => "Invalid \\escape"
  | unicodeEscape => "Invalid \\uXXXX escape"
  | byteOrderMark => "Unexpected UTF-8 BOM (decode using utf-8-sig)"

inductive Fault where
  | malformed (complaint : Complaint) (index : Nat)
  | numeralTooLong (digits : Nat)
  deriving DecidableEq, Repr

structure Cursor where
  rest : List Char
  index : Nat
  deriving DecidableEq, Repr

def complain {α : Type} (complaint : Complaint) (index : Nat) : Except Fault α :=
  .error (.malformed complaint index)

def isSpace (c : Char) : Bool :=
  c == ' ' || c == '\t' || c == '\n' || c == '\r'

def skipSpace (cursor : Cursor) : Cursor :=
  let space := cursor.rest.takeWhile isSpace
  ⟨cursor.rest.drop space.length, cursor.index + space.length⟩

def simpleEscape? (c : Char) : Option Char :=
  match c with
  | '"' => some '"'
  | '\\' => some '\\'
  | '/' => some '/'
  | 'b' => some '\x08'
  | 'f' => some '\x0c'
  | 'n' => some '\n'
  | 'r' => some '\r'
  | 't' => some '\t'
  | _ => none

def isHighSurrogate (unit : Nat) : Bool := 0xd800 ≤ unit && unit < 0xdc00

def isLowSurrogate (unit : Nat) : Bool := 0xdc00 ≤ unit && unit < 0xe000

/-- The character of a unit that has no partner. Half of a pair is no character, so no text can hold
one; that it is replaced is a restriction of the type of texts, not a rule of reading. -/
def charOfUnit (unit : Nat) : Char :=
  if isHighSurrogate unit || isLowSurrogate unit then '\ufffd' else Char.ofNat unit

def charOfPair (high low : Nat) : Char :=
  Char.ofNat (0x10000 + (high - 0xd800) * 0x400 + (low - 0xdc00))

/-- The character of a unicode escape, of which the `u` stands at `index` and `rest` follows, and
how many characters of `rest` belong to it. A character of the text must follow the digits, or the
escape counts as cut off. -/
def readUnicode (index : Nat) (rest : List Char) : Except Fault (Char × Nat) :=
  match rest with
  | a :: b :: c :: d :: next :: more =>
    match Text.hexNumber? [a, b, c, d] with
    | none => complain .unicodeEscape index
    | some unit =>
      match next, more with
      | '\\', 'u' :: e :: f :: g :: h :: _ :: _ =>
        if isHighSurrogate unit then
          match Text.hexNumber? [e, f, g, h] with
          | none => complain .unicodeEscape (index + 6)
          | some low =>
            if isLowSurrogate low then .ok (charOfPair unit low, 10) else .ok (charOfUnit unit, 4)
        else .ok (charOfUnit unit, 4)
      | _, _ => .ok (charOfUnit unit, 4)
  | _ => complain .unicodeEscape index

/-- Reads the rest of a string, of which the opening quote stands at `start` and the characters in
`read` are known, the last one first. -/
def readText (start : Nat) (read : List Char) (index : Nat) :
    List Char → Except Fault (String × Cursor)
  | [] => complain .unterminated start
  | '"' :: rest => .ok (String.ofList read.reverse, ⟨rest, index + 1⟩)
  | ['\\'] => complain .unterminated start
  | '\\' :: 'u' :: rest =>
    match readUnicode (index + 1) rest with
    | .error fault => .error fault
    | .ok (c, length) => readText start (c :: read) (index + 2 + length) (rest.drop length)
  | '\\' :: c :: rest =>
    match simpleEscape? c with
    | none => complain .escape index
    | some meant => readText start (meant :: read) (index + 2) rest
  | c :: rest =>
    if c.toNat < 0x20 then complain .controlCharacter index
    else readText start (c :: read) (index + 1) rest
termination_by rest => rest.length
decreasing_by all_goals simp only [List.length_cons, List.length_drop]; omega

def spanDigits (source : List Char) : List Char × List Char :=
  source.span Char.isDigit

def readFraction? : List Char → Option (List Char × List Char)
  | '.' :: rest =>
    match spanDigits rest with
    | ([], _) => none
    | found => some found
  | _ => none

def readSign : List Char → Bool × Nat × List Char
  | '-' :: rest => (true, 1, rest)
  | '+' :: rest => (false, 1, rest)
  | rest => (false, 0, rest)

def readExponent? : List Char → Option (Int × Nat × List Char)
  | [] => none
  | mark :: rest =>
    if mark = 'e' ∨ mark = 'E' then
      let (negative, signLength, rest) := readSign rest
      match spanDigits rest with
      | ([], _) => none
      | (digits, rest) =>
        some (Numeral.signed negative digits, 1 + signLength + digits.length, rest)
    else none

def readWhole? : List Char → Option (List Char × List Char)
  | '0' :: rest => some (['0'], rest)
  | source =>
    match spanDigits source with
    | ([], _) => none
    | found => some found

def readNumber (cursor : Cursor) : Except Fault (Json × Cursor) :=
  let (negative, signLength, unsigned) := match cursor.rest with
    | '-' :: rest => (true, 1, rest)
    | rest => (false, 0, rest)
  match readWhole? unsigned with
  | none => complain .value cursor.index
  | some (whole, afterWhole) =>
    let fraction? := readFraction? afterWhole
    let (fraction, afterFraction) := fraction?.getD ([], afterWhole)
    let exponent? := readExponent? afterFraction
    let (exponent, exponentLength, rest) := exponent?.getD (0, 0, afterFraction)
    let fractionLength := if fraction?.isSome then 1 + fraction.length else 0
    let length := signLength + whole.length + fractionLength + exponentLength
    let next : Cursor := ⟨rest, cursor.index + length⟩
    if fraction?.isSome ∨ exponent?.isSome then
      .ok (.float (Numeral.nearest negative whole fraction exponent), next)
    else if Numeral.maxDigits < whole.length then .error (.numeralTooLong whole.length)
    else .ok (.int (Numeral.signed negative whole), next)

def names : List (List Char × Json) :=
  [("null".toList, .null), ("true".toList, .bool true), ("false".toList, .bool false),
    ("NaN".toList, .float .nan), ("Infinity".toList, .float (.infinite false)),
    ("-Infinity".toList, .float (.infinite true))]

def readScalar (cursor : Cursor) : Except Fault (Json × Cursor) :=
  match names.find? fun entry => entry.1.isPrefixOf cursor.rest with
  | some (name, value) =>
    .ok (value, ⟨cursor.rest.drop name.length, cursor.index + name.length⟩)
  | none => readNumber cursor

mutual
/-- Reads a value; the first argument bounds the depth and the length of what is read. -/
def readValue : Nat → Cursor → Except Fault (Json × Cursor)
  | 0, cursor => complain .value cursor.index
  | room + 1, cursor =>
    match cursor.rest with
    | '"' :: rest =>
      (readText cursor.index [] (cursor.index + 1) rest).map fun (value, next) =>
        (.text value, next)
    | '\x7b' :: rest =>
      let inside := skipSpace ⟨rest, cursor.index + 1⟩
      match inside.rest with
      | '\x7d' :: rest => .ok (.object [], ⟨rest, inside.index + 1⟩)
      | _ => readEntries room [] inside
    | '[' :: rest =>
      let inside := skipSpace ⟨rest, cursor.index + 1⟩
      match inside.rest with
      | ']' :: rest => .ok (.array [], ⟨rest, inside.index + 1⟩)
      | _ => readItems room [] inside
    | _ => readScalar cursor

def readItems : Nat → List Json → Cursor → Except Fault (Json × Cursor)
  | 0, _, cursor => complain .value cursor.index
  | room + 1, read, cursor => do
    let (item, next) ← readValue room cursor
    let next := skipSpace next
    match next.rest with
    | ']' :: rest => .ok (.array (item :: read).reverse, ⟨rest, next.index + 1⟩)
    | ',' :: rest => readItems room (item :: read) (skipSpace ⟨rest, next.index + 1⟩)
    | _ => complain .comma next.index

def readEntries : Nat → List (String × Json) → Cursor → Except Fault (Json × Cursor)
  | 0, _, cursor => complain .value cursor.index
  | room + 1, read, cursor =>
    match cursor.rest with
    | '"' :: rest => do
      let (key, next) ← readText cursor.index [] (cursor.index + 1) rest
      let next := skipSpace next
      match next.rest with
      | ':' :: rest =>
        let (value, next) ← readValue room (skipSpace ⟨rest, next.index + 1⟩)
        let next := skipSpace next
        let read := putEntry key value read
        match next.rest with
        | '\x7d' :: rest => .ok (.object read, ⟨rest, next.index + 1⟩)
        | ',' :: rest => readEntries room read (skipSpace ⟨rest, next.index + 1⟩)
        | _ => complain .comma next.index
      | _ => complain .colon next.index
    | _ => complain .propertyName cursor.index
end

def parse (source : List Char) : Except Fault Json :=
  if source.head? = some '\ufeff' then .error (.malformed .byteOrderMark 0)
  else
    match readValue (2 * source.length + 2) (skipSpace ⟨source, 0⟩) with
    | .error fault => .error fault
    | .ok (value, next) =>
      let next := skipSpace next
      if next.rest = [] then .ok value else .error (.malformed .extraData next.index)

def position (source : List Char) (index : Nat) : Nat × Nat :=
  let before := source.take index
  (before.count '\n' + 1, (before.reverse.takeWhile (· ≠ '\n')).length + 1)

def complaintMessage (source : List Char) (complaint : Complaint) (index : Nat) : String :=
  let (line, column) := position source index
  complaint.text ++ ": line " ++ toString line ++ " column " ++ toString column ++ " (char " ++
    toString index ++ ")"

end GoMetadata.Json
