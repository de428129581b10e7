import GoMetadata.Decimal
import GoMetadata.Json.Basic
import GoMetadata.Text.Basic
import GoMetadata.Toml.Basic

/-!
Reading TOML 1.0. A document is read one statement at a time; what earlier statements forbid to
later ones is kept as two lists of keys: tables that have been opened or spelled out, and inline
values, into which nothing may be added. Why a document is refused is not told apart, but for an
integer of too many digits.
-/

namespace GoMetadata.Toml

inductive Fault where
  | malformed
  | numeralTooLong (digits : Nat)
  deriving DecidableEq, Repr

abbrev Key := List String

def refuse {α : Type} : Except Fault α :=
  .error .malformed

def isSpace (c : Char) : Bool :=
  c == ' ' || c == '\t'

def isSpaceOrNewline (c : Char) : Bool :=
  isSpace c || c == '\n'

def isControl (c : Char) : Bool :=
  (c.toNat < 0x20 && c != '\t') || c.toNat == 0x7f

def skipSpace (source : List Char) : List Char :=
  source.dropWhile isSpace

def skipComment (source : List Char) : Except Fault (List Char) :=
  match source with
  | '#' :: rest =>
    if (rest.takeWhile (· ≠ '\n')).any isControl then refuse else .ok (rest.dropWhile (· ≠ '\n'))
  | _ => .ok source

def skipFiller : Nat → List Char → Except Fault (List Char)
  | 0, source => .ok (source.dropWhile isSpaceOrNewline)
  | room + 1, source =>
    match source.dropWhile isSpaceOrNewline with
    | '#' :: rest => do skipFiller room (← skipComment ('#' :: rest))
    | rest => .ok rest

def isBareKeyChar (c : Char) : Bool :=
  c.isAlphanum || c == '-' || c == '_'

def readHexChar (width : Nat) (source : List Char) : Except Fault (Char × List Char) :=
  let digits := source.take width
  if digits.length < width then refuse
  else
    match Text.hexNumber? digits with
    | none => refuse
    | some code =>
      if h : code.isValidChar then .ok (Char.ofNatAux code h, source.drop width) else refuse

def simpleEscape? (c : Char) : Option Char :=
  match c with
  | 'b' => some '\x08'
  | 't' => some '\t'
  | 'n' => some '\n'
  | 'f' => some '\x0c'
  | 'r' => some '\r'
  | '"' => some '"'
  | '\\' => some '\\'
  | _ => none

/-- What follows a backslash in a string: the characters that the escape stands for, of which there
are none where it joins lines, and the rest. -/
def readEscape (multiline : Bool) (source : List Char) : Except Fault (List Char × List Char) :=
  match source with
  | [] => refuse
  | c :: rest =>
    if multiline && isSpaceOrNewline c then
      match skipSpace (c :: rest) with
      | [] => .ok ([], [])
      | '\n' :: rest => .ok ([], rest.dropWhile isSpaceOrNewline)
      | _ => refuse
    else if c = 'u' then (readHexChar 4 rest).map fun (c, rest) => ([c], rest)
    else if c = 'U' then (readHexChar 8 rest).map fun (c, rest) => ([c], rest)
    else
      match simpleEscape? c with
      | some meant => .ok ([meant], rest)
      | none => refuse

def readBasic (multiline : Bool) :
    Nat → List Char → List Char → Except Fault (List Char × List Char)
  | 0, _, _ => refuse
  | room + 1, read, source =>
    match source with
    | [] => refuse
    | '"' :: rest =>
      if !multiline then .ok (read.reverse, rest)
      else
        match rest with
        | '"' :: '"' :: rest => .ok (read.reverse, rest)
        | _ => readBasic multiline room ('"' :: read) rest
    | '\\' :: rest =>
      match readEscape multiline rest with
      | .error fault => .error fault
      | .ok (meant, rest) => readBasic multiline room (meant.reverse ++ read) rest
    | c :: rest =>
      if isControl c && !(multiline && c == '\n') then refuse
      else readBasic multiline room (c :: read) rest

def readLiteral (source : List Char) : Except Fault (List Char × List Char) :=
  let content := source.takeWhile (· ≠ '\'')
  match source.drop content.length with
  | [] => refuse
  | _ :: rest => if content.any isControl then refuse else .ok (content, rest)

def readLongLiteral (read : List Char) : List Char → Except Fault (List Char × List Char)
  | [] => refuse
  | '\'' :: '\'' :: '\'' :: rest => .ok (read.reverse, rest)
  | c :: rest =>
    if isControl c && c != '\n' then refuse else readLongLiteral (c :: read) rest

/-- Up to two quotes before the closing ones belong to a string over several lines. -/
def takeExtraQuotes (quote : Char) (content rest : List Char) : List Char × List Char :=
  let extra := (rest.take 2).takeWhile (· == quote)
  (content ++ extra, rest.drop extra.length)

def dropNewline : List Char → List Char
  | '\n' :: rest => rest
  | rest => rest

def readString? (source : List Char) : Option (Except Fault (String × List Char)) :=
  let finish (read : Except Fault (List Char × List Char)) : Except Fault (String × List Char) :=
    read.map fun (content, rest) => (String.ofList content, rest)
  match source with
  | '"' :: '"' :: '"' :: rest =>
    some <| finish <| (readBasic true (rest.length + 1) [] (dropNewline rest)).map
      fun (content, rest) => takeExtraQuotes '"' content rest
  | '"' :: rest => some <| finish <| readBasic false (rest.length + 1) [] rest
  | '\'' :: '\'' :: '\'' :: rest =>
    some <| finish <| (readLongLiteral [] (dropNewline rest)).map
      fun (content, rest) => takeExtraQuotes '\'' content rest
  | '\'' :: rest => some <| finish <| readLiteral rest
  | _ => none

def readKeyPart (source : List Char) : Except Fault (String × List Char) :=
  match source with
  | '"' :: rest =>
    (readBasic false (rest.length + 1) [] rest).map fun (part, rest) => (String.ofList part, rest)
  | '\'' :: rest => (readLiteral rest).map fun (part, rest) => (String.ofList part, rest)
  | _ =>
    let part := source.takeWhile isBareKeyChar
    if part.isEmpty then refuse else .ok (String.ofList part, source.drop part.length)

def readKey : Nat → List Char → Except Fault (Key × List Char)
  | 0, _ => refuse
  | room + 1, source => do
    let (part, rest) ← readKeyPart source
    match skipSpace rest with
    | '.' :: rest =>
      let (parts, rest) ← readKey room (skipSpace rest)
      .ok (part :: parts, rest)
    | rest => .ok ([part], rest)

/-- Digits, between which single underscores may stand. The first character is a digit. -/
def spanGrouped (isDigit : Char → Bool) : List Char → List Char × List Char
  | [] => ([], [])
  | '_' :: c :: rest =>
    if isDigit c then
      let (digits, rest) := spanGrouped isDigit rest
      (c :: digits, rest)
    else ([], '_' :: c :: rest)
  | c :: rest =>
    if isDigit c then
      let (digits, rest) := spanGrouped isDigit rest
      (c :: digits, rest)
    else ([], c :: rest)

def startsWithDigit (isDigit : Char → Bool) : List Char → Bool
  | c :: _ => isDigit c
  | [] => false

def isHexDigit (c : Char) : Bool := (Text.hexValue? c).isSome

def isOctalDigit (c : Char) : Bool := '0' ≤ c && c ≤ '7'

def isBinaryDigit (c : Char) : Bool := c == '0' || c == '1'

def baseOf? (letter : Char) : Option (Nat × (Char → Bool)) :=
  match letter with
  | 'x' => some (16, isHexDigit)
  | 'o' => some (8, isOctalDigit)
  | 'b' => some (2, isBinaryDigit)
  | _ => none

def numberInBase (base : Nat) (digits : List Char) : Nat :=
  digits.foldl (fun number c => base * number + (Text.hexValue? c).getD 0) 0

def readBased? (source : List Char) : Option (Value × List Char) :=
  match source with
  | '0' :: letter :: rest =>
    match baseOf? letter with
    | none => none
    | some (base, isDigit) =>
      if startsWithDigit isDigit rest then
        let (digits, rest) := spanGrouped isDigit rest
        some (.int (numberInBase base digits), rest)
      else none
  | _ => none

def readSign : List Char → Bool × List Char
  | '-' :: rest => (true, rest)
  | '+' :: rest => (false, rest)
  | rest => (false, rest)

def readWhole? : List Char → Option (List Char × List Char)
  | '0' :: rest => some (['0'], rest)
  | source =>
    if startsWithDigit Char.isDigit source then some (spanGrouped Char.isDigit source) else none

def readFraction? : List Char → Option (List Char × List Char)
  | '.' :: rest =>
    if startsWithDigit Char.isDigit rest then some (spanGrouped Char.isDigit rest) else none
  | _ => none

def readExponent? : List Char → Option (Int × List Char)
  | [] => none
  | mark :: rest =>
    let (negative, rest) := readSign rest
    if (mark = 'e' ∨ mark = 'E') ∧ startsWithDigit Char.isDigit rest then
      let (digits, rest) := spanGrouped Char.isDigit rest
      some (Numeral.signed negative digits, rest)
    else none

def readDecimal? (source : List Char) : Option (Except Fault (Value × List Char)) :=
  let (negative, unsigned) := readSign source
  (readWhole? unsigned).map fun (whole, afterWhole) =>
    let fraction? := readFraction? afterWhole
    let (fraction, afterFraction) := fraction?.getD ([], afterWhole)
    let exponent? := readExponent? afterFraction
    let (exponent, rest) := exponent?.getD (0, afterFraction)
    if fraction?.isSome ∨ exponent?.isSome then
      .ok (.float (Numeral.nearest negative whole fraction exponent), rest)
    else if Numeral.maxDigits < whole.length then .error (.numeralTooLong whole.length)
    else .ok (.int (Numeral.signed negative whole), rest)

def readFixedDigits? (width : Nat) (source : List Char) : Option (Nat × List Char) :=
  let digits := source.take width
  if digits.length = width ∧ digits.all Char.isDigit then
    some (Numeral.value digits, source.drop width)
  else none

def expect? (c : Char) : List Char → Option (List Char)
  | [] => none
  | found :: rest => if found = c then some rest else none

def readMicroseconds : List Char → Nat × List Char
  | '.' :: rest =>
    let digits := rest.takeWhile Char.isDigit
    if digits.isEmpty then (0, '.' :: rest)
    else
      let counted := digits.take 6
      (Numeral.value counted * Nat.pow 10 (6 - counted.length), rest.drop digits.length)
  | rest => (0, rest)

def readTime? (source : List Char) : Option (Time × List Char) := do
  let (hour, rest) ← readFixedDigits? 2 source
  let (minute, rest) ← readFixedDigits? 2 (← expect? ':' rest)
  let (second, rest) ← readFixedDigits? 2 (← expect? ':' rest)
  if hour < 24 ∧ minute < 60 ∧ second < 60 then
    let (microsecond, rest) := readMicroseconds rest
    some (⟨hour, minute, second, microsecond⟩, rest)
  else none

def readDate? (source : List Char) : Option (Date × List Char) := do
  let (year, rest) ← readFixedDigits? 4 source
  let (month, rest) ← readFixedDigits? 2 (← expect? '-' rest)
  let (day, rest) ← readFixedDigits? 2 (← expect? '-' rest)
  if 1 ≤ month ∧ month ≤ 12 ∧ 1 ≤ day ∧ day ≤ 31 then some (⟨year, month, day⟩, rest) else none

def readOffset (source : List Char) : Option Int × List Char :=
  match source with
  | 'Z' :: rest => (some 0, rest)
  | 'z' :: rest => (some 0, rest)
  | sign :: rest =>
    let found : Option (Int × List Char) := do
      let (hours, rest) ← readFixedDigits? 2 rest
      let (minutes, rest) ← readFixedDigits? 2 (← expect? ':' rest)
      if (sign = '+' ∨ sign = '-') ∧ hours < 24 ∧ minutes < 60 then
        let total : Int := 60 * hours + minutes
        some (if sign = '-' then -total else total, rest)
      else none
    match found with
    | some (offset, rest) => (some offset, rest)
    | none => (none, source)
  | [] => (none, [])

def readMoment? (source : List Char) : Option (Except Fault (Value × List Char)) :=
  (readDate? source).map fun (date, rest) =>
    if !date.isValid then refuse
    else
      match rest with
      | mark :: more =>
        match (if mark = 'T' ∨ mark = 't' ∨ mark = ' ' then readTime? more else none) with
        | some (time, rest) =>
          let (offset, rest) := readOffset rest
          .ok (.moment date time offset, rest)
        | none => .ok (.date date, rest)
      | [] => .ok (.date date, rest)

def names : List (List Char × Value) :=
  [("true".toList, .bool true), ("false".toList, .bool false),
    ("inf".toList, .float (.infinite false)), ("+inf".toList, .float (.infinite false)),
    ("-inf".toList, .float (.infinite true)), ("nan".toList, .float .nan),
    ("+nan".toList, .float .nan), ("-nan".toList, .float .nan)]

def readName (source : List Char) : Except Fault (Value × List Char) :=
  match names.find? fun entry => entry.1.isPrefixOf source with
  | some (name, value) => .ok (value, source.drop name.length)
  | none => refuse

def readScalar (source : List Char) : Except Fault (Value × List Char) :=
  match readString? source with
  | some read => read.map fun (value, rest) => (.text value, rest)
  | none =>
    match readMoment? source with
    | some read => read
    | none =>
      match readTime? source with
      | some (time, rest) => .ok (.time time, rest)
      | none =>
        match readBased? source with
        | some read => .ok read
        | none => (readDecimal? source).getD (readName source)

/-- Changes the table at the end of a path and creates the tables on the way. Of an array of tables
the last is meant, unless arrays are closed. -/
def modifyTable (throughArrays : Bool) (change : Table → Option Table) :
    Key → Table → Option Table
  | [], table => change table
  | key :: path, table =>
    match table.lookup key with
    | none => (modifyTable throughArrays change path []).map fun inner =>
      putEntry key (.table inner) table
    | some (.table inner) => (modifyTable throughArrays change path inner).map fun inner =>
      putEntry key (.table inner) table
    | some (.list items) =>
      match throughArrays, items.getLast? with
      | true, some (.table inner) => (modifyTable throughArrays change path inner).map fun inner =>
        putEntry key (.list (items.dropLast ++ [.table inner])) table
      | _, _ => none
    | some _ => none

def addEntry (key : String) (value : Value) (table : Table) : Option Table :=
  if (table.lookup key).isSome then none else some (putEntry key value table)

def Value.isContainer : Value → Bool
  | .list _ => true
  | .table _ => true
  | _ => false

def isFrozen (frozen : List Key) (key : Key) : Bool :=
  frozen.any fun value => value.isPrefixOf key

def addDotted (throughArrays : Bool) (above key : Key) (value : Value) (table : Table) :
    Except Fault Table :=
  match key.getLast? with
  | none => refuse
  | some stem =>
    match modifyTable throughArrays (addEntry stem value) (above ++ key.dropLast) table with
    | some table => .ok table
    | none => refuse

mutual
/-- Reads a value; the first argument bounds the depth and the length of what is read. -/
def readValue : Nat → List Char → Except Fault (Value × List Char)
  | 0, _ => refuse
  | room + 1, source =>
    match source with
    | '[' :: rest => do
      match ← skipFiller rest.length rest with
      | ']' :: rest => .ok (.list [], rest)
      | rest => readItems room [] rest
    | '\x7b' :: rest =>
      match skipSpace rest with
      | '\x7d' :: rest => .ok (.table [], rest)
      | rest => readEntries room [] [] rest
    | _ => readScalar source

def readItems : Nat → List Value → List Char → Except Fault (Value × List Char)
  | 0, _, _ => refuse
  | room + 1, read, source => do
    let (item, rest) ← readValue room source
    let read := item :: read
    match ← skipFiller rest.length rest with
    | ']' :: rest => .ok (.list read.reverse, rest)
    | ',' :: rest =>
      match ← skipFiller rest.length rest with
      | ']' :: rest => .ok (.list read.reverse, rest)
      | rest => readItems room read rest
    | _ => refuse

def readPair : Nat → List Char → Except Fault ((Key × Value) × List Char)
  | 0, _ => refuse
  | room + 1, source => do
    let (key, rest) ← readKey (source.length + 1) source
    match rest with
    | '=' :: rest =>
      let (value, rest) ← readValue room (skipSpace rest)
      .ok ((key, value), rest)
    | _ => refuse

def readEntries : Nat → List Key → Table → List Char → Except Fault (Value × List Char)
  | 0, _, _, _ => refuse
  | room + 1, frozen, read, source => do
    let ((key, value), rest) ← readPair room source
    if isFrozen frozen key then refuse
    else
      let read ← addDotted false [] key value read
      match skipSpace rest with
      | '\x7d' :: rest => .ok (.table read, rest)
      | ',' :: rest =>
        let frozen := if value.isContainer then key :: frozen else frozen
        readEntries room frozen read (skipSpace rest)
      | _ => refuse
end

structure Document where
  table : Table := []
  header : Key := []
  /-- Tables that no header may open and no dotted key may enter. -/
  explicit : List Key := []
  /-- Tables of dotted keys, which become explicit with the next header. -/
  pending : List Key := []
  /-- Inline values, which nothing may be added to. -/
  frozen : List Key := []

namespace Document

def enteredBy (key : Key) : List Key :=
  (List.range (key.length - 1)).map fun count => key.take (count + 1)

def addPair (document : Document) (key : Key) (value : Value) : Except Fault Document :=
  let entered := (enteredBy key).map (document.header ++ ·)
  if entered.any (document.explicit.contains ·) then refuse
  else if isFrozen document.frozen (document.header ++ key.dropLast) then refuse
  else do
    let table ← addDotted true document.header key value document.table
    let frozen :=
      if value.isContainer then (document.header ++ key) :: document.frozen else document.frozen
    .ok { document with table, frozen, pending := entered ++ document.pending }

def settle (document : Document) : Document :=
  { document with explicit := document.pending ++ document.explicit, pending := [] }

def openTable (document : Document) (key : Key) : Except Fault Document :=
  if document.explicit.contains key || isFrozen document.frozen key then refuse
  else
    match modifyTable true some key document.table with
    | none => refuse
    | some table =>
      .ok { document with table, header := key, explicit := key :: document.explicit }

def appendTable (key : String) (table : Table) : Option Table :=
  match table.lookup key with
  | none => some (putEntry key (.list [.table []]) table)
  | some (.list items) => some (putEntry key (.list (items ++ [.table []])) table)
  | some _ => none

/-- Opens the next table of an array. What was forbidden below the array is allowed again. -/
def openNext (document : Document) (key : Key) : Except Fault Document :=
  if isFrozen document.frozen key then refuse
  else
    match key.getLast? with
    | none => refuse
    | some stem =>
      match modifyTable true (appendTable stem) key.dropLast document.table with
      | none => refuse
      | some table =>
        .ok { document with
          table
          header := key
          explicit := key :: document.explicit.filter fun marked => !key.isPrefixOf marked
          frozen := document.frozen.filter fun marked => !key.isPrefixOf marked }

def readStatement (document : Document) (source : List Char) :
    Except Fault (Document × List Char) :=
  match source with
  | '[' :: '[' :: rest => do
    let (key, rest) ← readKey (rest.length + 1) (skipSpace rest)
    let document ← document.settle.openNext key
    match rest with
    | ']' :: ']' :: rest => .ok (document, rest)
    | _ => refuse
  | '[' :: rest => do
    let (key, rest) ← readKey (rest.length + 1) (skipSpace rest)
    let document ← document.settle.openTable key
    match rest with
    | ']' :: rest => .ok (document, rest)
    | _ => refuse
  | '#' :: _ => .ok (document, source)
  | _ => do
    let ((key, value), rest) ← readPair (3 * source.length + 3) source
    let document ← document.addPair key value
    .ok (document, rest)

def readStatements : Nat → Document → List Char → Except Fault Document
  | 0, document, _ => .ok document
  | room + 1, document, source =>
    match skipSpace source with
    | [] => .ok document
    | '\n' :: rest => readStatements room document rest
    | statement => do
      let (document, rest) ← document.readStatement statement
      match ← skipComment (skipSpace rest) with
      | [] => .ok document
      | '\n' :: rest => readStatements room document rest
      | _ => refuse

end Document

def parse (source : List Char) : Except Fault Table :=
  ((({} : Document).readStatements (source.length + 1) source)).map Document.table

end GoMetadata.Toml
