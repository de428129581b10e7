import GoMetadata.Decimal
import GoMetadata.Error

/-!
Values of a configuration, among them dates and times of day, and their texts. Null is in no
document: it stands for a key that is missing.
-/

namespace GoMetadata.Toml

structure Date where
  year : Nat
  month : Nat
  day : Nat
  deriving DecidableEq, Repr, Inhabited

structure Time where
  hour : Nat
  minute : Nat
  second : Nat
  microsecond : Nat
  deriving DecidableEq, Repr, Inhabited

def isLeapYear (year : Nat) : Bool :=
  year % 4 = 0 && (year % 100 ≠ 0 || year % 400 = 0)

def daysInMonth (year month : Nat) : Nat :=
  if month = 2 then (if isLeapYear year then 29 else 28)
  else if month = 4 ∨ month = 6 ∨ month = 9 ∨ month = 11 then 30
  else 31

def Date.isValid (date : Date) : Bool :=
  1 ≤ date.year && 1 ≤ date.month && date.month ≤ 12 && 1 ≤ date.day &&
    date.day ≤ daysInMonth date.year date.month

def padded (width number : Nat) : String :=
  let digits := Nat.toDigits 10 number
  String.ofList (List.replicate (width - digits.length) '0' ++ digits)

def Date.text (date : Date) : String :=
  padded 4 date.year ++ "-" ++ padded 2 date.month ++ "-" ++ padded 2 date.day

def Time.text (time : Time) : String :=
  padded 2 time.hour ++ ":" ++ padded 2 time.minute ++ ":" ++ padded 2 time.second ++
    (if time.microsecond = 0 then "" else "." ++ padded 6 time.microsecond)

def offsetText : Option Int → String
  | none => ""
  | some minutes =>
    (if minutes < 0 then "-" else "+") ++ padded 2 (minutes.natAbs / 60) ++ ":" ++
      padded 2 (minutes.natAbs % 60)

def momentText (separator : String) (date : Date) (time : Time) (offset : Option Int) : String :=
  date.text ++ separator ++ time.text ++ offsetText offset

inductive Value where
  | null
  | bool (value : Bool)
  | int (value : Int)
  | float (value : Binary64)
  | text (value : String)
  | date (value : Date)
  | time (value : Time)
  /-- A date and a time of day, perhaps with the distance from universal time in minutes. -/
  | moment (date : Date) (time : Time) (offset : Option Int)
  | list (items : List Value)
  | table (entries : List (String × Value))
  deriving Repr, Inhabited

abbrev Table := List (String × Value)

def Table.get (table : Table) (key : String) : Value :=
  (table.lookup key).getD .null

/-!
The text of a value where a text is asked for. A value inside a list or a table is
written so that its kind shows. Integers of too many digits have no text.
-/

def integerText (value : Int) : Except Defect String :=
  if Nat.pow 10 Numeral.maxDigits ≤ value.natAbs then .error .integerTooLong
  else .ok (toString value)

def timeParts (time : Time) : List Nat :=
  [time.hour, time.minute] ++
    (if time.microsecond ≠ 0 then [time.second, time.microsecond]
    else if time.second ≠ 0 then [time.second]
    else [])

def dateParts (date : Date) : List Nat :=
  [date.year, date.month, date.day]

def listed (numbers : List Nat) : String :=
  ", ".intercalate (numbers.map toString)

/-- A distance from universal time as days and seconds, the seconds never negative. -/
def zoneText (minutes : Int) : String :=
  if minutes = 0 then "datetime.timezone.utc"
  else
    let seconds := minutes * 60
    let inside :=
      if 0 < seconds then "seconds=" ++ toString seconds
      else "days=-1, seconds=" ++ toString (86400 + seconds)
    "datetime.timezone(datetime.timedelta(" ++ inside ++ "))"

def nestedMomentText (date : Date) (time : Time) (offset : Option Int) : String :=
  "datetime.datetime(" ++ listed (dateParts date ++ timeParts time) ++
    (match offset with
      | none => ""
      | some minutes => ", tzinfo=" ++ zoneText minutes) ++ ")"

mutual
def nestedText : Value → Except Defect String
  | .null => .ok "None"
  | .bool value => .ok (if value then "True" else "False")
  | .int value => integerText value
  | .float value => .ok value.text
  | .text value => .ok (Text.quoted value)
  | .date value => .ok ("datetime.date(" ++ listed (dateParts value) ++ ")")
  | .time value => .ok ("datetime.time(" ++ listed (timeParts value) ++ ")")
  | .moment date time offset => .ok (nestedMomentText date time offset)
  | .list items => (itemTexts items).map fun texts => "[" ++ ", ".intercalate texts ++ "]"
  | .table entries =>
    (entryTexts entries).map fun texts => "\x7b" ++ ", ".intercalate texts ++ "\x7d"

def itemTexts : List Value → Except Defect (List String)
  | [] => .ok []
  | item :: rest => do return (← nestedText item) :: (← itemTexts rest)

def entryText : String × Value → Except Defect String
  | (key, value) => (nestedText value).map fun shown => Text.quoted key ++ ": " ++ shown

def entryTexts : List (String × Value) → Except Defect (List String)
  | [] => .ok []
  | entry :: rest => do return (← entryText entry) :: (← entryTexts rest)
end

def Value.toText : Value → Except Defect String
  | .text value => .ok value
  | .date value => .ok value.text
  | .time value => .ok value.text
  | .moment day clock offset => .ok (momentText " " day clock offset)
  | value => nestedText value

end GoMetadata.Toml
