import ImportAtlas.Codec.Document
import ImportAtlas.Decimal.Shortest
import ImportAtlas.Time.Date

/-!
# Unquoted values in TOML

A value without quotes or brackets is a truth value, a whole number, a number with a fraction or
an exponent, or a date or a time. Digits may be grouped by underscores.

## Main definitions

* `Toml.integer?`, `Toml.real?`, `Toml.date?`: the three larger kinds
* `Toml.scalar?`: the document of an unquoted value
-/

namespace ImportAtlas.Toml

open Codec (Document ReadError Scalar)
open Decimal (Binary)
open Text (isDigit)

/-- The digits without the underscores between them. An underscore stands between two digits. -/
def ungroup (isDigit : Char → Bool) : List Char → Option (List Char)
  | [] => none
  | [c] => if isDigit c then some [c] else none
  | c :: '_' :: rest => if isDigit c then (c :: ·) <$> ungroup isDigit rest else none
  | c :: rest => if isDigit c then (c :: ·) <$> ungroup isDigit rest else none

/-- The digits of a whole part, which has no zero in front of other digits. -/
def wholeDigits? (cs : List Char) : Option (List Char) :=
  (ungroup isDigit cs).filter fun digits => digits.head? != some '0' || digits.length == 1

/-- Takes the sign off: whether it is a minus, and the rest. -/
def splitSign : List Char → Bool × List Char
  | '-' :: rest => (true, rest)
  | '+' :: rest => (false, rest)
  | cs => (false, cs)

/-! ## Whole numbers -/

/-- The least whole number of 64 bits with a sign. -/
def minSigned : Int := -9223372036854775808

/-- The largest whole number of 64 bits with a sign. -/
def maxSigned : Int := 9223372036854775807

/-- The largest whole number that may stand where nothing is read. -/
def maxSkipped : Int := 340282366920938463463374607431768211455

/-- The least whole number that may stand where nothing is read. -/
def minSkipped : Int := -170141183460469231731687303715884105728

/-- The document of a whole number. One that does not fit in 64 bits, with or without a sign, cannot
be read, and one that does not fit in 128 bits cannot even be skipped. -/
def integerDocument (n : Int) : Document :=
  if minSigned ≤ n ∧ n ≤ Text.maxCount then .ofScalar (.integer n)
  else if minSkipped ≤ n ∧ n ≤ maxSkipped then .scalar (.error Document.malformed) none
  else .scalar (.error Document.malformed) (some Document.malformed)

/-- The value of digits of a base. -/
def valueOf (base : Nat) (digits : List Char) : Nat :=
  Text.ofDigits base (digits.map fun c => (Text.digitValue? base c).getD 0)

/-- The whole number of a base with a mark of its own. -/
def based? (base : Nat) (cs : List Char) : Option Document :=
  (ungroup (fun c => (Text.digitValue? base c).isSome) cs).map fun digits =>
    integerDocument (valueOf base digits)

/-- The whole number that a text denotes. -/
def integer? (cs : List Char) : Option Document :=
  match cs with
  | '0' :: 'x' :: digits => based? 16 digits
  | '0' :: 'o' :: digits => based? 8 digits
  | '0' :: 'b' :: digits => based? 2 digits
  | _ =>
    let (negative, digits) := splitSign cs
    (wholeDigits? digits).map fun digits =>
      let n : Int := valueOf 10 digits
      integerDocument (if negative then -n else n)

/-! ## Numbers with a fraction or an exponent -/

/-- Whether a character belongs to a group of digits. -/
def isGrouped (c : Char) : Bool := isDigit c || c == '_'

/-- The digits after a point, none if there is no point, and the rest. -/
def splitFraction? : List Char → Option (List Char × List Char)
  | '.' :: rest =>
    (ungroup isDigit (rest.takeWhile isGrouped)).map fun digits =>
      (digits, rest.dropWhile isGrouped)
  | cs => some ([], cs)

/-- The exponent that a text consists of, zero for no text. -/
def exponent? : List Char → Option Int
  | [] => some 0
  | c :: rest =>
    if c = 'e' ∨ c = 'E' then
      let (negative, digits) := splitSign rest
      (ungroup isDigit digits).map fun digits =>
        let n : Int := valueOf 10 digits
        if negative then -n else n
    else none

/-- The number of double precision nearest to digits times a power of ten; none if it is too large.
Powers far out of range are not worked out. -/
def nearest? (digits : Nat) (power : Int) (length : Nat) : Option Binary :=
  if digits = 0 ∨ power + length < -400 then some .zero
  else if 400 < power then none
  else Binary.ofRatio? (digits * Nat.pow 10 power.toNat) (Nat.pow 10 (-power).toNat)

/-- A number of double precision as it is shown. -/
def shown (negative : Bool) (x : Binary) : String :=
  (if negative then "-" else "") ++ Decimal.positional (Decimal.shortest x)

/-- The number with a fraction or an exponent, or the special number, that a text denotes. -/
def real? (cs : List Char) : Option Document :=
  let (negative, body) := splitSign cs
  if body = ['i', 'n', 'f'] then
    some (.ofScalar (.real (if negative then "-inf" else "inf")))
  else if body = ['n', 'a', 'n'] then some (.ofScalar (.real "NaN"))
  else do
    let whole ← wholeDigits? (body.takeWhile isGrouped)
    let (fraction, rest) ← splitFraction? (body.dropWhile isGrouped)
    if fraction.isEmpty && rest.isEmpty then failure
    let exponent ← exponent? rest
    let digits := whole ++ fraction
    match nearest? (valueOf 10 digits) (exponent - fraction.length) digits.length with
    | some x => return .ofScalar (.real (shown negative x))
    | none => return .scalar (.error Document.malformed) (some Document.malformed)

/-! ## Dates and times -/

/-- The number of exactly `width` digits at the front of a text, and the rest. -/
def fixedDigits? (width : Nat) (cs : List Char) : Option (Nat × List Char) :=
  let digits := cs.take width
  if digits.length = width ∧ digits.all isDigit then some (valueOf 10 digits, cs.drop width)
  else none

/-- The text after a mark that has to stand there. -/
def mark? (mark : Char) : List Char → Option (List Char)
  | c :: rest => if c = mark then some rest else none
  | [] => none

/-- A number that is shown with at least `width` digits. -/
def padded (width n : Nat) : String := Decimal.padLeft '0' width (Text.natural n)

/-- A date at the front of a text, as it is shown, and the rest. -/
def day? (cs : List Char) : Option (String × List Char) := do
  let (year, cs) ← fixedDigits? 4 cs
  let cs ← mark? '-' cs
  let (month, cs) ← fixedDigits? 2 cs
  let cs ← mark? '-' cs
  let (day, cs) ← fixedDigits? 2 cs
  let _ ← Date.exists? year month day
  return (padded 4 year ++ "-" ++ padded 2 month ++ "-" ++ padded 2 day, cs)

/-- The fraction of a second at the front of a text, as it is shown, and the rest. Digits after the
ninth and zeros at the end are not shown. -/
def fraction? : List Char → Option (String × List Char)
  | '.' :: rest =>
    let digits := rest.takeWhile isDigit
    let kept := ((digits.take 9).reverse.dropWhile (· == '0')).reverse
    if digits.isEmpty then none
    else if kept.isEmpty then some ("", rest.dropWhile isDigit)
    else some ("." ++ String.ofList kept, rest.dropWhile isDigit)
  | cs => some ("", cs)

/-- The seconds at the front of a text, as they are shown, and the rest. Seconds that are left out
count as zero. -/
def seconds? : List Char → Option (String × List Char)
  | ':' :: rest => do
    let (second, rest) ← fixedDigits? 2 rest
    let (fraction, rest) ← fraction? rest
    if 60 < second then failure
    return (":" ++ padded 2 second ++ fraction, rest)
  | cs => some (":00", cs)

/-- A time at the front of a text, as it is shown, and the rest. -/
def clock? (cs : List Char) : Option (String × List Char) := do
  let (hour, cs) ← fixedDigits? 2 cs
  let cs ← mark? ':' cs
  let (minute, cs) ← fixedDigits? 2 cs
  let (seconds, cs) ← seconds? cs
  if 23 < hour ∨ 59 < minute then failure
  return (padded 2 hour ++ ":" ++ padded 2 minute ++ seconds, cs)

/-- The offset that a text consists of, as it is shown, an offset of zero with a plus; a text
without one may be empty. -/
def offset? : List Char → Option String
  | [] => some ""
  | c :: rest =>
    if c = 'Z' ∨ c = 'z' then (if rest.isEmpty then some "Z" else none)
    else if c = '+' ∨ c = '-' then do
      let (hour, rest) ← fixedDigits? 2 rest
      let rest ← mark? ':' rest
      let (minute, rest) ← fixedDigits? 2 rest
      if 23 < hour ∨ 59 < minute ∨ !rest.isEmpty then failure
      let sign := if c = '-' ∧ (hour, minute) ≠ (0, 0) then "-" else "+"
      return sign ++ padded 2 hour ++ ":" ++ padded 2 minute
    else none

/-- The date, the time or both that a text denotes, as it is shown. -/
def date? (cs : List Char) : Option String :=
  match day? cs with
  | some (day, []) => some day
  | some (day, c :: rest) =>
    if c = 'T' ∨ c = 't' ∨ c = ' ' then do
      let (clock, rest) ← clock? rest
      let offset ← offset? rest
      return day ++ "T" ++ clock ++ offset
    else none
  | none =>
    match clock? cs with
    | some (clock, []) => some clock
    | _ => none

/-! ## All of them -/

/-- Whether an unquoted value is no number out of range, whole numbers having 64 bits and a sign. -/
def scalarInRange : Except ReadError Scalar → Bool
  | .ok (.integer n) => minSigned ≤ n && n ≤ maxSigned
  | .ok _ => true
  | .error _ => false

/-- The document of an unquoted value. -/
def scalar? (cs : List Char) : Option Document :=
  if cs = ['t', 'r', 'u', 'e'] then some (.ofScalar (.boolean true))
  else if cs = ['f', 'a', 'l', 's', 'e'] then some (.ofScalar (.boolean false))
  else
    (integer? cs).or ((real? cs).or ((date? cs).map fun shown => .ofScalar (.date shown)))

end ImportAtlas.Toml
