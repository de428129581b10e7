import GoMetadata.Decimal
import GoMetadata.Json.Basic
import GoMetadata.Text.Basic

/-!
JSON text. Everything that is not printable ASCII is escaped by its UTF-16 units.
-/

namespace GoMetadata.Json

structure Separators where
  item : List Char
  key : List Char

def compact : Separators := ⟨[','], [':']⟩

def spaced : Separators := ⟨[',', ' '], [':', ' ']⟩

def escapeUnit (unit : Nat) : List Char :=
  '\\' :: 'u' :: Text.hexText 4 unit

def escapeChar (c : Char) : List Char :=
  let code := c.toNat
  if c = '"' then ['\\', '"']
  else if c = '\\' then ['\\', '\\']
  else if c = '\n' then ['\\', 'n']
  else if c = '\r' then ['\\', 'r']
  else if c = '\t' then ['\\', 't']
  else if code = 8 then ['\\', 'b']
  else if code = 12 then ['\\', 'f']
  else if 0x20 ≤ code ∧ code < 0x7f then [c]
  else if code < 0x10000 then escapeUnit code
  else
    escapeUnit (0xd800 + (code - 0x10000) / 0x400) ++
      escapeUnit (0xdc00 + (code - 0x10000) % 0x400)

def writeText (text : List Char) : List Char :=
  '"' :: text.flatMap escapeChar ++ ['"']

def writeFloat : Binary64 → List Char
  | .nan => "NaN".toList
  | .infinite negative => (if negative then "-Infinity" else "Infinity").toList
  | value => value.text.toList

mutual
def write (separators : Separators) : Json → List Char
  | null => "null".toList
  | bool value => (if value then "true" else "false").toList
  | int value => (toString value).toList
  | float value => writeFloat value
  | text value => writeText value.toList
  | array items => '[' :: writeItems separators items ++ [']']
  | object entries => '\x7b' :: writeEntries separators entries ++ ['\x7d']

def writeItems (separators : Separators) : List Json → List Char
  | [] => []
  | [item] => write separators item
  | item :: rest =>
    write separators item ++ separators.item ++ writeItems separators rest

def writeEntry (separators : Separators) : String × Json → List Char
  | (key, value) => writeText key.toList ++ separators.key ++ write separators value

def writeEntries (separators : Separators) : List (String × Json) → List Char
  | [] => []
  | [entry] => writeEntry separators entry
  | entry :: rest =>
    writeEntry separators entry ++ separators.item ++ writeEntries separators rest
end

def render (separators : Separators) (value : Json) : String :=
  String.ofList (value.write separators)

end GoMetadata.Json
