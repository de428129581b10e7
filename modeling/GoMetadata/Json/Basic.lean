import GoMetadata.Decimal
import GoMetadata.Text.Basic

/-!
JSON values, and typed values from them. Integers are exact; other numbers are binary64. The entries
of an object keep the order in which their keys first appear.
-/

namespace GoMetadata

inductive Json where
  | null
  | bool (value : Bool)
  | int (value : Int)
  | float (value : Binary64)
  | text (value : String)
  | array (items : List Json)
  | object (entries : List (String × Json))
  deriving Repr, Inhabited

/-- Puts a value under a key: in the place of the entry that has the key, else at the end. -/
def putEntry {α : Type} (key : String) (value : α) : List (String × α) → List (String × α)
  | [] => [(key, value)]
  | entry :: rest =>
    if entry.1 = key then (key, value) :: rest else entry :: putEntry key value rest

namespace Json

def kind : Json → String
  | null => "NoneType"
  | bool _ => "bool"
  | int _ => "int"
  | float _ => "float"
  | text _ => "str"
  | array _ => "list"
  | object _ => "dict"

mutual
def allFinite : Json → Bool
  | float value => value.isFinite
  | array items => allFiniteItems items
  | object entries => allFiniteEntries entries
  | _ => true

def allFiniteItems : List Json → Bool
  | [] => true
  | item :: rest => item.allFinite && allFiniteItems rest

def allFiniteEntries : List (String × Json) → Bool
  | [] => true
  | (_, value) :: rest => value.allFinite && allFiniteEntries rest
end

end Json

/-!
Typed values, with every fault counted. A value of another kind is taken where it says the
same thing: a whole number written with a fraction, a number or a flag written as text. A container
of the wrong kind is one fault; inside a container every wrong item is one.
-/

inductive Checked (α : Type) where
  | valid (value : α)
  | invalid (faults : Nat)
  deriving DecidableEq, Repr

namespace Checked

def map {α β : Type} (f : α → β) : Checked α → Checked β
  | valid value => valid (f value)
  | invalid faults => invalid faults

def apply {α β : Type} : Checked (α → β) → Checked α → Checked β
  | valid f, valid value => valid (f value)
  | valid _, invalid faults => invalid faults
  | invalid faults, valid _ => invalid faults
  | invalid left, invalid right => invalid (left + right)

instance : Applicative Checked where
  pure := valid
  map := map
  seq f value := apply f (value ())

def fault {α : Type} : Checked α :=
  invalid 1

def summary (faults : Nat) (subject : String) : String :=
  toString faults ++ (if faults = 1 then " validation error for " else " validation errors for ")
    ++ subject

def string : Json → Checked String
  | .text value => valid value
  | _ => fault

def isSpacing (c : Char) : Bool :=
  Text.isBlank c && !(28 ≤ c.toNat && c.toNat ≤ 31)

def trimSpacing (text : List Char) : List Char :=
  ((text.dropWhile isSpacing).reverse.dropWhile isSpacing).reverse

def natural? (digits : List Char) : Option Nat :=
  if digits.isEmpty || !digits.all Char.isDigit || Numeral.maxDigits < digits.length ||
      (digits.head? == some '0' && 1 < digits.length) then none
  else some (Numeral.value digits)

def integer? : List Char → Option Int
  | '-' :: digits => (natural? digits).map fun value => -(value : Int)
  | digits => (natural? digits).map fun value => (value : Int)

def takeSign : List Char → Bool × List Char
  | '-' :: rest => (true, rest)
  | '+' :: rest => (false, rest)
  | rest => (false, rest)

/-- Drops zeros and underscores up to the first other digit or a minus; before a point, or at the
end, the last dropped character stays. -/
def skipZeros (last : Char) : List Char → Option (List Char)
  | [] => some [last]
  | c :: rest =>
    if c = '0' ∨ c = '_' then skipZeros c rest
    else if c.isDigit ∨ c = '-' then some (c :: rest)
    else if c = '.' then some (last :: c :: rest)
    else none

def dropZeros : List Char → Option (List Char)
  | [] => none
  | c :: rest =>
    if c = '0' then skipZeros c rest
    else if c.isDigit then some (c :: rest)
    else none

def dropFraction (numeral : List Char) : Option (List Char) :=
  let whole := numeral.takeWhile (· ≠ '.')
  match numeral.drop whole.length with
  | [] => some whole
  | _ :: fraction => if fraction.isEmpty || !fraction.all (· == '0') then none else some whole

def hasDoubledUnderscore : List Char → Bool
  | '_' :: '_' :: _ => true
  | _ :: rest => hasDoubledUnderscore rest
  | [] => false

def dropUnderscores (numeral : List Char) : List Char :=
  if numeral.head? == some '_' || numeral.getLast? == some '_' || hasDoubledUnderscore numeral then
    numeral
  else numeral.filter (· ≠ '_')

/-- The integer that a text says, also with a plus sign, leading zeros, underscores between digits
or a fraction of zeros. Zeros may stand before a minus as well as after it. -/
def integerOfText? (text : List Char) : Option Int :=
  let numeral := trimSpacing text
  match integer? numeral with
  | some value => some value
  | none => do
    let (negative, unsigned) := takeSign numeral
    let whole ← dropFraction (← dropZeros unsigned)
    let digits := dropUnderscores whole
    integer? (if negative then '-' :: digits else digits)

def ofOption {α : Type} : Option α → Checked α
  | some value => valid value
  | none => fault

def integer : Json → Checked Int
  | .int value => valid value
  | .bool value => valid (if value then 1 else 0)
  | .float value =>
    match value.toInt? with
    | some whole => if whole.natAbs < Nat.pow 2 63 then valid whole else fault
    | none => fault
  | .text value => ofOption (integerOfText? value.toList)
  | _ => fault

def flagOfText? (text : String) : Option Bool :=
  let word := String.ofList (text.toList.map Char.toLower)
  if ["0", "off", "f", "false", "n", "no"].contains word then some false
  else if ["1", "on", "t", "true", "y", "yes"].contains word then some true
  else none

def flagOfInt? (value : Int) : Option Bool :=
  if value = 0 then some false else if value = 1 then some true else none

def flag : Json → Checked Bool
  | .bool value => valid value
  | .int value => ofOption (flagOfInt? value)
  | .float value => ofOption (value.toInt?.bind flagOfInt?)
  | .text value => ofOption (flagOfText? value)
  | _ => fault

def items {α : Type} (check : Json → Checked α) : List Json → Checked (List α)
  | [] => valid []
  | item :: rest => List.cons <$> check item <*> items check rest

def list {α : Type} (check : Json → Checked α) : Json → Checked (List α)
  | .array found => items check found
  | _ => fault

def entries {α : Type} (check : Json → Checked α) :
    List (String × Json) → Checked (List (String × α))
  | [] => valid []
  | (key, value) :: rest =>
    (fun checked more => (key, checked) :: more) <$> check value <*> entries check rest

def dictionary {α : Type} (check : Json → Checked α) : Json → Checked (List (String × α))
  | .object found => entries check found
  | _ => fault

def orNull {α : Type} (empty : α) (check : Json → Checked α) : Json → Checked α
  | .null => valid empty
  | value => check value

/-- The field that has the first of some names that an object has. -/
def field {α : Type} (names : List String) (missing : Checked α) (check : Json → Checked α)
    (found : List (String × Json)) : Checked α :=
  match names.findSome? fun name => found.lookup name with
  | none => missing
  | some value => check value

end Checked

end GoMetadata
