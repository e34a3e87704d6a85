import ImportAtlas.Codec.Document
import ImportAtlas.Decimal.Shortest

/-!
# Numbers in JSON

A numeral is a sign, whole digits without a leading zero, and perhaps a fraction and an exponent.
A numeral without either stands for a whole number as long as that fits into 64 bits; every other
numeral stands for a number of double precision. Only as many of its digits count as fit into 64
bits, and scaling by the power of ten is rounded.

## Main definitions

* `Json.Numeral`: the parts of a numeral
* `Json.readNumeral`: reads a numeral
* `Json.Numeral.value`: the number that a numeral stands for
-/

namespace ImportAtlas.Json

open Codec (ReadError Scalar Document)
open Decimal (Binary)
open Text (isDigit)

/-- The parts of a numeral. -/
structure Numeral where
  negative : Bool
  whole : List Char
  /-- The digits after the point, of which there is at least one if there is a point. -/
  fraction : List Char
  /-- Whether the exponent is negative, and its digits. -/
  exponent : Option (Bool × List Char)
  deriving DecidableEq, Repr

/-- Reads the digits before the point. -/
def readWhole : List Char → Except ReadError (List Char × List Char)
  | [] => .error Document.ended
  | '0' :: rest =>
    if rest.head?.any isDigit then .error Document.malformed else .ok (['0'], rest)
  | c :: rest =>
    if isDigit c then .ok (c :: rest.takeWhile isDigit, rest.dropWhile isDigit)
    else .error Document.malformed

/-- Reads one or more digits. -/
def readDigits (cs : List Char) : Except ReadError (List Char × List Char) :=
  match cs with
  | [] => .error Document.ended
  | c :: _ =>
    if isDigit c then .ok (cs.takeWhile isDigit, cs.dropWhile isDigit)
    else .error Document.malformed

/-- Reads a point and the digits after it, if there is a point. -/
def readFraction : List Char → Except ReadError (List Char × List Char)
  | '.' :: rest => readDigits rest
  | cs => .ok ([], cs)

/-- Reads the sign of an exponent and its digits. -/
def readPower : List Char → Except ReadError ((Bool × List Char) × List Char)
  | '-' :: rest => do
    let (digits, rest) ← readDigits rest
    return ((true, digits), rest)
  | cs => do
    let (digits, rest) ← readDigits (match cs with
      | '+' :: rest => rest
      | cs => cs)
    return ((false, digits), rest)

/-- Reads an exponent, if there is one. -/
def readExponent : List Char → Except ReadError (Option (Bool × List Char) × List Char)
  | c :: rest =>
    if c = 'e' ∨ c = 'E' then do
      let (exponent, rest) ← readPower rest
      return (some exponent, rest)
    else .ok (none, c :: rest)
  | [] => .ok (none, [])

/-- Reads a numeral. -/
def readNumeral (cs : List Char) : Except ReadError (Numeral × List Char) := do
  let negative := cs.head? == some '-'
  let (whole, cs) ← readWhole (if negative then cs.drop 1 else cs)
  let (fraction, cs) ← readFraction cs
  let (exponent, cs) ← readExponent cs
  return (⟨negative, whole, fraction, exponent⟩, cs)

namespace Numeral

/-- A number after as many further digits as fit into 64 bits, and the digits that are left. -/
def accumulate (sofar : Nat) : List Char → Nat × List Char
  | [] => (sofar, [])
  | c :: cs =>
    let next := sofar * 10 + Text.decimalValue [c]
    if Text.maxCount < next then (sofar, c :: cs) else accumulate next cs

/-- The largest exponent that is read. -/
def maxPower : Nat := 2147483647

/-- A power of ten, rounded. -/
def powerOfTen (n : Nat) : Binary := (Binary.ofRatio? (Nat.pow 10 n) 1).getD .zero

/-- A number divided by a power of ten, in steps of at most `10 ^ 308`. -/
def scaleDown (x : Binary) (power : Nat) : Binary :=
  if power ≤ 308 then (x.div? (powerOfTen power)).getD .zero
  else if x.mantissa = 0 then x
  else scaleDown ((x.div? (powerOfTen 308)).getD .zero) (power - 308)
termination_by power

/-- A number times a power of ten; none if it is too large. -/
def scale (x : Binary) (power : Int) : Option Binary :=
  if power < 0 then some (scaleDown x power.natAbs)
  else if power ≤ 308 then x.mul? (powerOfTen power.natAbs)
  else if x.mantissa = 0 then some x
  else none

/-- The number of double precision for the digits that count and a power of ten, as it is shown. -/
def showReal (negative : Bool) (significand : Nat) (power : Int) : Except ReadError Scalar :=
  match scale ((Binary.ofRatio? significand 1).getD .zero) power with
  | none => .error Document.malformed
  | some x =>
    .ok (.real ((if negative then "-" else "") ++ Decimal.scientific (Decimal.shortest x)))

/-- The number of double precision for the digits that count, their power of ten and a written
exponent. -/
def withExponent (negative : Bool) (significand : Nat) (power : Int) (down : Bool)
    (digits : List Char) : Except ReadError Scalar :=
  let size := Text.decimalValue digits
  if maxPower < size then
    if significand ≠ 0 ∧ !down then .error Document.malformed else showReal negative 0 0
  else showReal negative significand (if down then power - size else power + size)

/-- The largest size of a negative number of 64 bits. -/
def maxNegative : Nat := 9223372036854775808

/-- A whole number, or the number of double precision that stands for it: for zero with a sign, and
for a number below those of 64 bits. -/
def wholeValue (negative : Bool) (significand : Nat) : Except ReadError Scalar :=
  if !negative then .ok (.integer significand)
  else if significand = 0 ∨ maxNegative < significand then showReal true significand 0
  else .ok (.integer (-significand))

/-- The number that a numeral stands for. -/
def value (numeral : Numeral) : Except ReadError Scalar :=
  let (significand, rest) := accumulate 0 numeral.whole
  let (significand', rest') := accumulate significand numeral.fraction
  -- Whole digits that do not count raise the power, and digits after the point that do lower it.
  let power : Int := rest.length - (numeral.fraction.length - rest'.length : Nat)
  match numeral.exponent with
  | some (down, digits) => withExponent numeral.negative significand' power down digits
  | none =>
    if numeral.fraction.isEmpty && rest.isEmpty then wholeValue numeral.negative significand
    else showReal numeral.negative significand' power

end Numeral

end ImportAtlas.Json
