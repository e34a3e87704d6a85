/-!
# Whole numbers in decimal digits

## Main definitions

* `Text.digitValue?`: the value of a digit in a base up to sixteen
* `Text.ofDigits`: the number that a list of digit values stands for
* `Text.readNatural?`: a whole number up to a bound, with an optional plus sign
* `Text.natural`: the decimal digits of a whole number
-/

namespace ImportAtlas.Text

/-- The largest number of 64 bits, the bound of every count in a document. -/
def maxCount : Nat := 18446744073709551615

/-- The largest number of 32 bits, the bound of line numbers and complexities. -/
def maxLine : Nat := 4294967295

/-- The value of a digit, the letters `a` to `f` of either case standing for ten to fifteen. -/
def hexValue? (c : Char) : Option Nat :=
  let n := c.toNat
  if 0x30 ≤ n && n ≤ 0x39 then some (n - 0x30)
  else if 0x61 ≤ n && n ≤ 0x66 then some (n - 0x61 + 10)
  else if 0x41 ≤ n && n ≤ 0x46 then some (n - 0x41 + 10)
  else none

/-- The value of a digit of the given base, which is at most sixteen. -/
def digitValue? (base : Nat) (c : Char) : Option Nat :=
  (hexValue? c).filter (· < base)

/-- Whether a character is one of the ten ASCII digits. -/
def isDigit (c : Char) : Bool := '0' ≤ c && c ≤ '9'

/-- The number that digit values stand for in a base, the first being the most significant. -/
def ofDigits (base : Nat) (digits : List Nat) : Nat :=
  digits.foldl (fun n d => n * base + d) 0

/-- The number that a text of decimal digits stands for, reading other characters as zero. -/
def decimalValue (cs : List Char) : Nat :=
  ofDigits 10 (cs.map fun c => (digitValue? 10 c).getD 0)

/-- The decimal digits of a whole number, without leading zeros. -/
def natural (n : Nat) : String :=
  String.ofList (Nat.toDigits 10 n)

/-- The number that a text stands for: one or more decimal digits after an optional plus sign,
with a value of at most `bound`. -/
def readNatural? (bound : Nat) (s : String) : Option Nat :=
  let digits := match s.toList with
    | '+' :: rest => rest
    | cs => cs
  if digits.isEmpty || !digits.all isDigit then none
  else (some (decimalValue digits)).filter (· ≤ bound)

end ImportAtlas.Text
