import ImportAtlas.Text.Blank
import ImportAtlas.Time.Instant

/-!
# Reading points in time

Instants are read in the form of RFC 3339 with some freedom: blanks may stand around the parts of
the date and before the offset, a blank may stand for the `T`, a year may have a sign and then any
number of digits, other numbers may be short, `UTC` may stand for `Z`, and the colon in the offset
may be left out.

## Main definitions

* `InstantFault`: why a text is no instant
* `Instant.read`: the instant that a text denotes
-/

namespace ImportAtlas

/-- Why a text is no instant. -/
inductive InstantFault where
  /-- The text ends too early. -/
  | tooShort
  /-- A character stands where it cannot stand. -/
  | invalid
  /-- A number is too large or too small, or there is no such date. -/
  | outOfRange
  /-- The offset leads out of the calendar. -/
  | impossible
  /-- The text goes on after the instant. -/
  | tooLong
  deriving DecidableEq, Repr

/-- An instant fault in words. -/
def InstantFault.message : InstantFault → String
  | tooShort => "premature end of input"
  | invalid => "input contains invalid characters"
  | outOfRange => "input is out of range"
  | impossible => "no possible date and time matching input"
  | tooLong => "trailing input"

namespace Instant

open Text

/-- The text without the blanks at its front. -/
def skipBlanks (cs : List Char) : List Char := cs.dropWhile isBlank

/-- The largest number that is read before its range is looked at. -/
def maxRead : Nat := 9223372036854775807

/-- A number of one or more digits, at most `width` of them. -/
def readNumber (width : Option Nat) (cs : List Char) : Except InstantFault (Nat × List Char) :=
  match cs with
  | [] => .error .tooShort
  | _ =>
    let run := cs.takeWhile isDigit
    let digits := match width with
      | none => run
      | some width => run.take width
    if digits.isEmpty then .error .invalid
    else if maxRead < decimalValue digits then .error .outOfRange
    else .ok (decimalValue digits, cs.drop digits.length)

/-- A number from `low` to `high`, of one or two digits, after blanks. -/
def readBounded (low high : Nat) (cs : List Char) : Except InstantFault (Nat × List Char) := do
  let (value, rest) ← readNumber (some 2) (skipBlanks cs)
  if low ≤ value ∧ value ≤ high then return (value, rest) else throw .outOfRange

/-- A year after blanks: with a sign any number of digits, and without one at most four. -/
def readYear (cs : List Char) : Except InstantFault (Int × List Char) := do
  let (year, rest) ← match skipBlanks cs with
    | '-' :: digits =>
      (fun part => (-(part.1 : Int), part.2)) <$> readNumber none digits
    | '+' :: digits => (fun part => ((part.1 : Int), part.2)) <$> readNumber none digits
    | digits => (fun part => ((part.1 : Int), part.2)) <$> readNumber (some 4) digits
  if -2147483648 ≤ year ∧ year ≤ 2147483647 then return (year, rest) else throw .outOfRange

/-- The text after a mark that has to stand there, blanks before it being skipped. -/
def expectMark (mark : Char) (cs : List Char) : Except InstantFault (List Char) :=
  match skipBlanks cs with
  | [] => .error .tooShort
  | c :: rest => if c = mark then .ok rest else .error .invalid

/-- The text after the mark between the date and the time. -/
def expectTimeMark (cs : List Char) : Except InstantFault (List Char) :=
  match cs with
  | [] => .error .tooShort
  | c :: rest => if c = 'T' ∨ c = 't' ∨ c = ' ' then .ok rest else .error .invalid

/-- The nanoseconds of a fraction, if one stands there; digits after the ninth are left out. -/
def readFraction (cs : List Char) : Except InstantFault (Nat × List Char) :=
  match cs with
  | '.' :: digits => do
    let (value, rest) ← readNumber (some 9) digits
    let count := digits.length - rest.length
    return (value * Nat.pow 10 (9 - count), rest.dropWhile isDigit)
  | _ => .ok (0, cs)

/-- Two digits with the text after them. A text of fewer than two bytes is too short. -/
def readTwoDigits (cs : List Char) : Except InstantFault ((Nat × Nat) × List Char) :=
  match cs with
  | a :: b :: rest =>
    if isDigit a ∧ isDigit b then
      .ok ((decimalValue [a], decimalValue [b]), rest)
    else .error .invalid
  | [c] => if c.toNat < 128 then .error .tooShort else .error .invalid
  | [] => .error .tooShort

/-- The hours and minutes of an offset after its sign, in minutes. -/
def readOffsetSize (cs : List Char) : Except InstantFault (Int × List Char) := do
  let (hours, rest) ← readTwoDigits cs
  let afterMark := rest.dropWhile fun c => c == ':' || isBlank c
  let (minutes, rest) ← readTwoDigits afterMark
  if 6 ≤ minutes.1 then throw .outOfRange
  return (((hours.1 * 10 + hours.2) * 60 + minutes.1 * 10 + minutes.2 : Nat), rest)

/-- The minus sign of typography, which may stand for the hyphen. -/
def minusSign : Char := '\u2212'

/-- Whether a text starts with `UTC` in any letter case. -/
def startsUtc (cs : List Char) : Bool :=
  (cs.take 3).map Char.toUpper == ['U', 'T', 'C']

/-- The offset from universal time, in minutes. -/
def readOffset (cs : List Char) : Except InstantFault (Int × List Char) :=
  let cs := skipBlanks cs
  if startsUtc cs then .ok (0, cs.drop 3)
  else match cs with
    | [] => .error .tooShort
    | c :: rest =>
      if c = 'Z' ∨ c = 'z' then .ok (0, rest)
      else if c = '+' then readOffsetSize rest
      else if c = '-' ∨ c = minusSign then
        (fun part => (-part.1, part.2)) <$> readOffsetSize rest
      else .error .invalid

/-- The instant of a local time with an offset in minutes, which is less than a day. -/
def ofLocal (written : Instant) (offset : Int) : Except InstantFault Instant :=
  if offset ≤ -minutesPerDay ∨ minutesPerDay ≤ offset then .error .outOfRange
  else match written.shift? (-offset) with
    | none => .error .impossible
    | some instant => .ok instant

/-- The instant that a text denotes. -/
def readChars (cs : List Char) : Except InstantFault Instant := do
  let (year, cs) ← readYear cs
  let cs ← expectMark '-' cs
  let (month, cs) ← readBounded 1 12 cs
  let cs ← expectMark '-' cs
  let (day, cs) ← readBounded 1 31 cs
  let cs ← expectTimeMark cs
  let (hour, cs) ← readBounded 0 23 cs
  let cs ← expectMark ':' cs
  let (minute, cs) ← readBounded 0 59 cs
  let cs ← expectMark ':' cs
  let (second, cs) ← readBounded 0 60 cs
  let (nanosecond, cs) ← readFraction cs
  let (offset, cs) ← readOffset cs
  if !(skipBlanks cs).isEmpty then throw .tooLong
  match Date.exists? year month day with
  | none => throw .outOfRange
  | some date => ofLocal { date, minute := hour * 60 + minute, second, nanosecond } offset

/-- The instant that a text denotes. -/
def read (s : String) : Except InstantFault Instant := readChars s.toList

end Instant

end ImportAtlas
