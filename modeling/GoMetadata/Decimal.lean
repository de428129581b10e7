/-!
Binary64 numbers and decimal numerals, exactly. A finite number is a sign, a significand and a power
of two. A numeral is rounded once, from its exact value to the nearest number, a half going to the
even significand.
-/

namespace GoMetadata

/-- A finite number is `± significand * 2 ^ exponent` with the significand below `2 ^ 53` and the
exponent from `-1074` to `971`; the exponent is as small as these bounds allow. -/
inductive Binary64 where
  | finite (negative : Bool) (significand : Nat) (exponent : Int)
  | infinite (negative : Bool)
  | nan
  deriving DecidableEq, Repr, Inhabited

namespace Binary64

def zero (negative : Bool) : Binary64 :=
  .finite negative 0 (-1074)

def isFinite : Binary64 → Bool
  | .finite .. => true
  | _ => false

def roundQuotient (numerator denominator : Nat) : Nat :=
  let floor := numerator / denominator
  let rest := numerator % denominator
  if 2 * rest < denominator then floor
  else if denominator < 2 * rest then floor + 1
  else floor + floor % 2

def scaled (numerator denominator : Nat) (exponent : Int) : Nat × Nat :=
  if 0 ≤ exponent then (numerator, denominator * Nat.pow 2 exponent.toNat)
  else (numerator * Nat.pow 2 (-exponent).toNat, denominator)

/-- The number nearest to a quotient of which the numerator is not zero. -/
def ofQuotient (negative : Bool) (numerator denominator : Nat) : Binary64 :=
  -- The quotient by this power has 53 or 54 bits; of 54, one is left out.
  let low : Int := (numerator.log2 : Int) - denominator.log2 - 53
  let quotient := scaled numerator denominator low
  let free := if Nat.pow 2 53 ≤ quotient.1 / quotient.2 then low + 1 else low
  let exponent := max free (-1074)
  let quotient := scaled numerator denominator exponent
  let significand := roundQuotient quotient.1 quotient.2
  -- Rounding up may come to the next power of two.
  let carried := significand = Nat.pow 2 53
  let exponent := if carried then exponent + 1 else exponent
  if 971 < exponent then .infinite negative
  else .finite negative (if carried then Nat.pow 2 52 else significand) exponent

/-- The number nearest to `± digits * 10 ^ exponent`. Exponents far outside the range are decided
without computing the power. -/
def ofDecimal (negative : Bool) (digits : Nat) (exponent : Int) : Binary64 :=
  if digits = 0 ∨ exponent + (digits.log2 / 3 + 1 : Nat) < -400 then zero negative
  else if 400 < exponent then .infinite negative
  else if 0 ≤ exponent then ofQuotient negative (digits * Nat.pow 10 exponent.toNat) 1
  else ofQuotient negative digits (Nat.pow 10 (-exponent).toNat)

def toInt? : Binary64 → Option Int
  | .finite negative significand exponent =>
    let magnitude? :=
      if 0 ≤ exponent then some (significand * Nat.pow 2 exponent.toNat)
      else if significand % Nat.pow 2 (-exponent).toNat = 0 then
        some (significand / Nat.pow 2 (-exponent).toNat)
      else none
    magnitude?.map fun magnitude => if negative then -(magnitude : Int) else magnitude
  | _ => none

end Binary64

/-! Numerals as characters, the first digit weighing most -/

namespace Numeral

/-- The most digits of an integer that is read or written. -/
def maxDigits : Nat := 4300

def value (digits : List Char) : Nat :=
  digits.foldl (fun number c => 10 * number + (c.toNat - 48)) 0

def signed (negative : Bool) (digits : List Char) : Int :=
  if negative then -(value digits : Int) else value digits

def nearest (negative : Bool) (whole fraction : List Char) (exponent : Int) : Binary64 :=
  Binary64.ofDecimal negative (value (whole ++ fraction)) (exponent - fraction.length)

end Numeral

/-!
The shortest decimal text of a binary64 number: the fewest digits that read back as the number,
and of those the nearest to it. Magnitudes from `10 ^ -4` up to `10 ^ 16` are written positionally,
always with a fraction; others with an exponent of at least two digits.
-/

namespace Binary64

def magnitude (numerator denominator : Nat) : Int :=
  if denominator ≤ numerator then
    ((Nat.toDigits 10 (numerator / denominator)).length : Int) - 1
  else
    let length := (Nat.toDigits 10 (denominator / numerator)).length
    if denominator ≤ numerator * Nat.pow 10 (length - 1) then 1 - (length : Int)
    else -(length : Int)

/-- The grid point nearest to `significand * 2 ^ exponent` among the multiples of `10 ^ grid`, if
it reads back as that number. -/
def onGrid? (significand : Nat) (exponent grid : Int) : Option Nat :=
  -- Everything is counted in quarters of the last place, so the borders are integers too.
  let unit := Nat.pow 10 grid.toNat * Nat.pow 2 (2 - exponent).toNat
  let quarter := Nat.pow 2 (exponent - 2).toNat * Nat.pow 10 (-grid).toNat
  let value := 4 * significand * quarter
  -- Below a power of two the next number is only half as far away.
  let below := if significand = Nat.pow 2 52 ∧ -1074 < exponent then 1 else 2
  let low := (4 * significand - below) * quarter
  let high := (4 * significand + 2) * quarter
  let even := significand % 2 = 0
  let readsBack (point : Nat) : Bool :=
    (low < point * unit ∨ even ∧ low = point * unit) ∧
      (point * unit < high ∨ even ∧ point * unit = high)
  let floor := value / unit
  if readsBack floor ∧ readsBack (floor + 1) then
    some (roundQuotient value unit)
  else if readsBack floor then some floor
  else if readsBack (floor + 1) then some (floor + 1)
  else none

/-- The digits of the shortest text and the power of ten that the last of them counts. -/
def shortest (significand : Nat) (exponent : Int) : Nat × Int :=
  let top :=
    if 0 ≤ exponent then magnitude (significand * Nat.pow 2 exponent.toNat) 1
    else magnitude significand (Nat.pow 2 (-exponent).toNat)
  let found := (List.range 17).findSome? fun (extra : Nat) =>
    let grid := top - (extra : Int)
    (onGrid? significand exponent grid).map fun point =>
      if point = Nat.pow 10 (extra + 1) then (1, top + 1) else (point, grid)
  found.getD (0, 0)

def exponentText (exponent : Int) : List Char :=
  let digits := Nat.toDigits 10 exponent.natAbs
  (if exponent < 0 then '-' else '+') :: (if digits.length < 2 then '0' :: digits else digits)

/-- The text of `0.d₁d₂… * 10 ^ point`. -/
def layout (digits : List Char) (point : Int) : List Char :=
  if -3 ≤ point ∧ point ≤ 0 then
    '0' :: '.' :: List.replicate (-point).toNat '0' ++ digits
  else if 0 < point ∧ point ≤ 16 then
    let whole := point.toNat
    if digits.length ≤ whole then
      digits ++ List.replicate (whole - digits.length) '0' ++ ['.', '0']
    else digits.take whole ++ '.' :: digits.drop whole
  else
    let fraction := match digits.drop 1 with
      | [] => []
      | more => '.' :: more
    digits.take 1 ++ fraction ++ 'e' :: exponentText (point - 1)

def text : Binary64 → String
  | .finite negative significand exponent =>
    let magnitudeText :=
      if significand = 0 then ['0', '.', '0']
      else
        let (number, grid) := shortest significand exponent
        let digits := Nat.toDigits 10 number
        layout digits (digits.length + grid)
    String.ofList (if negative then '-' :: magnitudeText else magnitudeText)
  | .infinite negative => if negative then "-inf" else "inf"
  | .nan => "nan"

end Binary64

end GoMetadata
