import ImportAtlas.Decimal.Binary

/-!
# Shortest decimal digits

A number of double precision is shown with the fewest decimal digits that still round to it; of
several such decimals with that many digits the nearest one is taken.

For each number of digits there are two decimals next to the number, one below and one above. The
search goes through one digit, two digits, and so on, and stops at the first that has a neighbour
in the interval of ratios that round to the number. Seventeen digits always do.

## Main definitions

* `Decimal.Digits`: a whole number times a power of ten
* `Decimal.shortest`: the shortest digits of a number
* `Decimal.positional`, `Decimal.scientific`: two ways to write them
-/

namespace ImportAtlas.Decimal

/-- A whole number times a power of ten. -/
structure Digits where
  value : Nat
  exponent : Int
  deriving DecidableEq, Repr

/-- The largest `k` below a bound with `10 ^ k ≤ num / den`, for a ratio of at least one. -/
def logTen (num den : Nat) : Nat :=
  (Nat.toDigits 10 (num / den)).length - 1

/-- The least `k` with `1 ≤ 10 ^ k * num / den`, looked for up to `fuel` steps. -/
def shiftTen (num den : Nat) : Nat → Nat
  | 0 => 0
  | fuel + 1 => if den ≤ num then 0 else shiftTen (num * 10) den fuel + 1

/-- The power of ten of the first decimal digit of a positive ratio. -/
def leadingPower (num den : Nat) : Int :=
  if den ≤ num then logTen num den else -(shiftTen num den 400 : Nat)

/-- Whether `value * 10 ^ exponent` rounds to a number, where a quarter of the place value of the
last bit of the number is `2 ^ (x.exponent - 2)`. The interval below is half as long at a power of
two, and the ends belong to the interval of an even mantissa. -/
def roundsTo (x : Binary) (value : Nat) (exponent : Int) : Bool :=
  let unit := x.exponent - 2
  let scaled := value * Nat.pow 10 exponent.toNat * Nat.pow 2 (-unit).toNat
  let quarter := Nat.pow 2 unit.toNat * Nat.pow 10 (-exponent).toNat
  let high := (4 * x.mantissa + 2) * quarter
  let low :=
    (if x.mantissa = Binary.leastNormal ∧ Binary.minExponent < x.exponent then 4 * x.mantissa - 1
      else 4 * x.mantissa - 2) * quarter
  if x.mantissa % 2 = 0 then low ≤ scaled && scaled ≤ high else low < scaled && scaled < high

/-- The decimal nearest to a number among its two neighbours with `count` digits that round to it,
if one does. -/
def neighbour? (x : Binary) (power : Int) (count : Nat) : Option Digits :=
  let exponent := power - count + 1
  let num := x.num * Nat.pow 10 (-exponent).toNat
  let den := x.den * Nat.pow 10 exponent.toNat
  let low := num / den
  let nearest := roundDiv num den
  let other := if nearest = low then low + 1 else low
  -- Below a power of two the interval is shorter, so it may hold the farther neighbour alone.
  if roundsTo x nearest exponent then some ⟨nearest, exponent⟩
  else if roundsTo x other exponent then some ⟨other, exponent⟩
  else none

/-- The first of the counts from `count` on, at most `fuel` of them, that has a decimal. -/
def searchDigits (x : Binary) (power : Int) (count : Nat) : Nat → Digits
  | 0 => ⟨0, 0⟩
  | fuel + 1 =>
    match neighbour? x power count with
    | some digits => digits
    | none => searchDigits x power (count + 1) fuel

/-- Moves trailing zeros of the digits into the power of ten. -/
def stripZeros (digits : Digits) : Nat → Digits
  | 0 => digits
  | fuel + 1 =>
    if digits.value ≠ 0 ∧ digits.value % 10 = 0 then
      stripZeros ⟨digits.value / 10, digits.exponent + 1⟩ fuel
    else digits

/-- The shortest digits of a number. -/
def shortest (x : Binary) : Digits :=
  if x.mantissa = 0 then ⟨0, 0⟩
  else stripZeros (searchDigits x (leadingPower x.num x.den) 1 17) 20

/-- Digits written with a point and without an exponent, a whole number ending in `.0`. -/
def positional (digits : Digits) : String :=
  if 0 ≤ digits.exponent then
    Text.natural (digits.value * Nat.pow 10 digits.exponent.toNat) ++ ".0"
  else withPoint (-digits.exponent).toNat digits.value

/-- Digits written with a point where the point stands near them, and with an exponent otherwise:
from `10 ^ 16` on, and below `10 ^ -5`. -/
def scientific (digits : Digits) : String :=
  let text := Text.natural digits.value
  let power := digits.exponent + text.toList.length - 1
  if digits.value = 0 ∨ (-5 ≤ power ∧ power < 16) then positional digits
  else
    let mantissa := match text.toList with
      | [] => []
      | [d] => [d]
      | d :: rest => d :: '.' :: rest
    String.ofList mantissa ++ (if power < 0 then "e-" else "e+") ++
      Text.natural power.natAbs

end ImportAtlas.Decimal
