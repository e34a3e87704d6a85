import ImportAtlas.Text.Digits

/-!
# Numbers of double precision

Ratios are kept as 64-bit floating point numbers: of each ratio the nearest number with a
mantissa of 53 bits is taken, a tie going to the even mantissa. Everything here is exact
arithmetic on whole numbers, so the digits that are printed follow from it. Ratios are printed with
a fixed number of decimals.

## Main definitions

* `Decimal.Binary`: a mantissa times a power of two
* `Decimal.roundDiv`: the whole number nearest to a quotient
* `Decimal.Binary.ofRatio?`: the number of double precision nearest to a ratio
* `Decimal.padLeft`: a text filled up with zeros or blanks at its front
* `Decimal.fixed`: a number with a given number of decimals
-/

namespace ImportAtlas.Decimal

/-- The whole number nearest to a quotient; of two equally near ones the even one. -/
def roundDiv (num den : Nat) : Nat :=
  let quotient := num / den
  let rest := num % den
  if den < 2 * rest ∨ (2 * rest = den ∧ quotient % 2 = 1) then quotient + 1 else quotient

/-- A number that is not negative: a mantissa times a power of two. -/
structure Binary where
  mantissa : Nat
  exponent : Int
  deriving DecidableEq, Repr

namespace Binary

/-- Zero. -/
def zero : Binary := ⟨0, 0⟩

/-- The least exponent of a number of double precision. -/
def minExponent : Int := -1074

/-- The largest exponent of a number of double precision. -/
def maxExponent : Int := 971

/-- The least number of 53 bits. -/
def leastNormal : Nat := 4503599627370496

/-- The least number of 54 bits. -/
def mantissaBound : Nat := 9007199254740992

/-- The numerator of the number as a ratio. -/
def num (x : Binary) : Nat := x.mantissa * Nat.pow 2 x.exponent.toNat

/-- The denominator of the number as a ratio. -/
def den (x : Binary) : Nat := Nat.pow 2 (-x.exponent).toNat

/-- The number of double precision nearest to a ratio, its mantissa having 53 bits unless its
exponent is the least one; none if the ratio is too large. -/
def ofRatio? (num den : Nat) : Option Binary :=
  if num = 0 ∨ den = 0 then some zero
  else
    let guess : Int := (num.log2 : Int) - den.log2 - 53
    let quotientAt (exponent : Int) : Nat :=
      roundDiv (num * Nat.pow 2 (-exponent).toNat) (den * Nat.pow 2 exponent.toNat)
    let floorAt (exponent : Int) : Nat :=
      (num * Nat.pow 2 (-exponent).toNat) / (den * Nat.pow 2 exponent.toNat)
    let exponent := if floorAt guess < mantissaBound then guess else guess + 1
    let exponent := max exponent minExponent
    let mantissa := quotientAt exponent
    let result : Binary :=
      if mantissa = mantissaBound then ⟨leastNormal, exponent + 1⟩ else ⟨mantissa, exponent⟩
    if maxExponent < result.exponent then none else some result

/-- The product, rounded; none if it is too large. -/
def mul? (x y : Binary) : Option Binary :=
  ofRatio? (x.num * y.num) (x.den * y.den)

/-- The quotient, rounded; none if it is too large. -/
def div? (x y : Binary) : Option Binary :=
  ofRatio? (x.num * y.den) (x.den * y.num)

end Binary

/-- The percentage that a part is of a whole, rounded after the division and again after the
multiplication; zero of nothing. -/
def percentOf (part whole : Nat) : Binary :=
  (((Binary.ofRatio? part whole).bind fun share =>
    (Binary.ofRatio? 100 1).bind fun hundred => share.mul? hundred)).getD .zero

/-! ## Numbers with a fixed number of decimals -/

/-- The text with `fill` in front of it, so that it has at least `width` characters. -/
def padLeft (fill : Char) (width : Nat) (s : String) : String :=
  String.ofList (List.replicate (width - s.toList.length) fill ++ s.toList)

/-- The whole number `scaled` with a point before its last `places` digits. -/
def withPoint (places scaled : Nat) : String :=
  if places = 0 then Text.natural scaled
  else
    Text.natural (scaled / Nat.pow 10 places) ++ "." ++
      padLeft '0' places (Text.natural (scaled % Nat.pow 10 places))

/-- A number with `places` decimals, the last one rounded; a tie goes to the even digit. -/
def fixed (places : Nat) (x : Binary) : String :=
  withPoint places (roundDiv (x.num * Nat.pow 10 places) x.den)

end ImportAtlas.Decimal
