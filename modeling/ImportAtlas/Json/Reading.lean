import ImportAtlas.Codec.Record
import ImportAtlas.Json.Numeral

/-!
# Reading JSON

A text is read into a document in one pass. Where the text goes wrong the document has a fault at
that place, and nothing after it is looked at unless the wrong part can be skipped.

## Main definitions

* `Json.readValue`: the document at the front of a text
* `Json.read`: a value of a codec, from a text that holds nothing else
-/

namespace ImportAtlas.Json

open Codec (ReadError Scalar Document)

/-- Whether a character may stand between the parts of a document. -/
def isBlank (c : Char) : Bool := c == ' ' || c == '\n' || c == '\t' || c == '\r'

/-- The text without the blanks at its front. -/
def skipBlanks (cs : List Char) : List Char := cs.dropWhile isBlank

/-- The text after a word that has to stand there. -/
def readWord : List Char → List Char → Except ReadError (List Char)
  | [], cs => .ok cs
  | _ :: _, [] => .error Document.ended
  | w :: word, c :: cs => if w = c then readWord word cs else .error Document.malformed

/-! ## Texts -/

/-- Reads the four digits of an escape. A text that ends before four more bytes has ended. -/
def readHex (cs : List Char) : Except ReadError (Nat × List Char) :=
  match cs with
  | a :: b :: c :: d :: rest =>
    match Text.hexValue? a, Text.hexValue? b, Text.hexValue? c, Text.hexValue? d with
    | some a, some b, some c, some d => .ok (((a * 16 + b) * 16 + c) * 16 + d, rest)
    | _, _, _, _ => .error Document.malformed
  | _ =>
    if (String.ofList cs).utf8ByteSize < 4 then .error Document.ended else .error Document.malformed

/-- Whether a number is the first half of a pair of escapes. -/
def isHighHalf (n : Nat) : Bool := 0xD800 ≤ n && n ≤ 0xDBFF

/-- Whether a number is the second half of a pair of escapes. -/
def isLowHalf (n : Nat) : Bool := 0xDC00 ≤ n && n ≤ 0xDFFF

/-- Reads the second half of a pair of escapes, `high` being the first. -/
def readLowHalf (high : Nat) : List Char → Except ReadError (Char × List Char)
  | [] => .error Document.ended
  | '\\' :: [] => .error Document.ended
  | '\\' :: 'u' :: rest => do
    let (low, rest) ← readHex rest
    if isLowHalf low then
      return (Char.ofNat (0x10000 + (high - 0xD800) * 0x400 + (low - 0xDC00)), rest)
    else throw Document.malformed
  | _ => .error Document.malformed

/-- Reads the character that an escape with digits stands for. -/
def readCodePoint (cs : List Char) : Except ReadError (Char × List Char) := do
  let (n, rest) ← readHex cs
  if isLowHalf n then throw Document.malformed
  else if isHighHalf n then readLowHalf n rest
  else return (Char.ofNat n, rest)

/-- The character that an escape of one letter stands for. -/
def shortEscape? (c : Char) : Option Char :=
  match c with
  | '"' => some '"'
  | '\\' => some '\\'
  | '/' => some '/'
  | 'b' => some '\x08'
  | 'f' => some '\x0c'
  | 'n' => some '\n'
  | 'r' => some '\r'
  | 't' => some '\t'
  | _ => none

/-- Reads the escape after a backslash. -/
def readEscape : List Char → Except ReadError (Char × List Char)
  | [] => .error Document.ended
  | 'u' :: rest => readCodePoint rest
  | c :: rest =>
    match shortEscape? c with
    | some d => .ok (d, rest)
    | none => .error Document.malformed

/-- Skips the escape after a backslash, whose digits may stand for anything. -/
def skipEscape : List Char → Except ReadError (List Char)
  | [] => .error Document.ended
  | 'u' :: rest => (·.2) <$> readHex rest
  | c :: rest =>
    match shortEscape? c with
    | some _ => .ok rest
    | none => .error Document.malformed

/-- Reads a text up to its closing quote, with `sofar` the characters before, the latest first. -/
def readText (fuel : Nat) (sofar : List Char) (cs : List Char) :
    Except ReadError (String × List Char) :=
  match fuel, cs with
  | 0, _ | _, [] => .error Document.ended
  | _ + 1, '"' :: rest => .ok (String.ofList sofar.reverse, rest)
  | fuel + 1, '\\' :: rest =>
    match readEscape rest with
    | .error why => .error why
    | .ok (c, rest) => readText fuel (c :: sofar) rest
  | fuel + 1, c :: rest =>
    if c.toNat < 0x20 then .error Document.malformed else readText fuel (c :: sofar) rest

/-- Skips a text up to its closing quote. -/
def skipText (fuel : Nat) (cs : List Char) : Except ReadError (List Char) :=
  match fuel, cs with
  | 0, _ | _, [] => .error Document.ended
  | _ + 1, '"' :: rest => .ok rest
  | fuel + 1, '\\' :: rest =>
    match skipEscape rest with
    | .error why => .error why
    | .ok rest => skipText fuel rest
  | fuel + 1, c :: rest =>
    if c.toNat < 0x20 then .error Document.malformed else skipText fuel rest

/-! ## Values -/

/-- A document with the text after it, if the reading can go on there. -/
abbrev Reading := Document × Option (List Char)

/-- The text that starts after a quote. -/
def textDocument (fuel : Nat) (cs : List Char) : Reading :=
  match readText fuel [] cs with
  | .ok (s, rest) => (.text (.ok s) none, some rest)
  | .error why =>
    match skipText fuel cs with
    | .ok rest => (.text (.error why) none, some rest)
    | .error skip => (.text (.error why) (some skip), none)

/-- A word that stands for a simple value. -/
def wordDocument (word : List Char) (value : Scalar) (cs : List Char) : Reading :=
  match readWord word cs with
  | .ok rest => (.ofScalar value, some rest)
  | .error why => (.scalar (.error why) (some why), none)

/-- The word for null. -/
def nullDocument (cs : List Char) : Reading :=
  match readWord ['n', 'u', 'l', 'l'] cs with
  | .ok rest => (.null none, some rest)
  | .error why => (.null (some why), none)

/-- A number. One that is too large can be skipped. -/
def numberDocument (cs : List Char) : Reading :=
  match readNumeral cs with
  | .ok (numeral, rest) => (.scalar numeral.value none, some rest)
  | .error why => (.scalar (.error why) (some Document.malformed), none)

/-- A value that is no text, no array and no object, starting with the character `c`. -/
def simpleDocument (c : Char) (cs : List Char) : Reading :=
  if c = 'n' then nullDocument cs
  else if c = 't' then wordDocument ['t', 'r', 'u', 'e'] (.boolean true) cs
  else if c = 'f' then wordDocument ['f', 'a', 'l', 's', 'e'] (.boolean false) cs
  else if c = '-' ∨ Text.isDigit c then numberDocument cs
  else (.broken Document.malformed, none)

/-- The name of a member at the front of a text. Anything but a text is looked at only as far as
to say what it is. -/
def readName (fuel : Nat) (cs : List Char) : Reading :=
  match cs with
  | [] => (.broken Document.ended, none)
  | '"' :: rest => textDocument fuel rest
  | '[' :: _ => (.sequence [] (some Document.malformed), none)
  | '{' :: _ => (.map [] (some Document.malformed), none)
  | c :: _ => ((simpleDocument c cs).1, none)

/-- Items or entries, what goes wrong after the last one, and the text after them, if the reading
can go on there. -/
abbrev Run (α : Type) := List α × Option ReadError × Option (List Char)

/-- A run that starts with `first`, going on with `more` if there is a text after it. -/
def Run.cons {α : Type} (first : α) (rest : Option (List Char)) (more : List Char → Run α) :
    Run α :=
  match rest with
  | none => ([first], some Document.malformed, none)
  | some rest =>
    let (items, ending, rest) := more rest
    (first :: items, ending, rest)

mutual

/-- The document at the front of a text, blanks before it being skipped. -/
def readValue (fuel : Nat) (cs : List Char) : Reading :=
  match fuel with
  | 0 => (.broken Document.ended, none)
  | fuel + 1 =>
    match skipBlanks cs with
    | [] => (.broken Document.ended, none)
    | '"' :: rest => textDocument fuel rest
    | '[' :: rest =>
      let (items, ending, rest) := readItems fuel true rest
      (.sequence items ending, rest)
    | '{' :: rest =>
      let (entries, ending, rest) := readMembers fuel true rest
      (.map entries ending, rest)
    | c :: rest => simpleDocument c (c :: rest)

/-- The items of an array up to its closing bracket, from the first one or from the comma on. -/
def readItems (fuel : Nat) (first : Bool) (cs : List Char) : Run Document :=
  match fuel with
  | 0 => ([], some Document.ended, none)
  | fuel + 1 =>
    match skipBlanks cs with
    | [] => ([], some Document.ended, none)
    | c :: rest =>
      if c = ']' then ([], none, some rest)
      else if first then
        let (item, rest) := readValue fuel (c :: rest)
        Run.cons item rest (readItems fuel false)
      else if c = ',' then
        let (item, rest) := readValue fuel rest
        Run.cons item rest (readItems fuel false)
      else ([], some Document.malformed, none)

/-- The members of an object up to its closing brace, from the first one or from the comma on. -/
def readMembers (fuel : Nat) (first : Bool) (cs : List Char) : Run (Document × Document) :=
  match fuel with
  | 0 => ([], some Document.ended, none)
  | fuel + 1 =>
    match skipBlanks cs with
    | [] => ([], some Document.ended, none)
    | c :: rest =>
      if c = '}' then ([], none, some rest)
      else if first then
        let (member, rest) := readMember fuel (c :: rest)
        Run.cons member rest (readMembers fuel false)
      else if c = ',' then
        let (member, rest) := readMember fuel (skipBlanks rest)
        Run.cons member rest (readMembers fuel false)
      else ([], some Document.malformed, none)

/-- A name, a colon and a value. -/
def readMember (fuel : Nat) (cs : List Char) : (Document × Document) × Option (List Char) :=
  match fuel with
  | 0 => ((.broken Document.ended, .broken Document.ended), none)
  | fuel + 1 =>
    match readName fuel cs with
    | (name, none) => ((name, .broken Document.malformed), none)
    | (name, some rest) =>
      match skipBlanks rest with
      | [] => ((name, .broken Document.ended), none)
      | c :: rest =>
        if c = ':' then
          let (value, rest) := readValue fuel rest
          ((name, value), rest)
        else ((name, .broken Document.malformed), none)

end

/-- The document at the front of a text, and the text after it, if the reading can go on there. -/
def parse (s : String) : Reading :=
  let cs := s.toList
  readValue (2 * cs.length + 1) cs

/-- The value of a text that holds one document and nothing else. -/
def read {α : Type} (codec : Codec α) (s : String) : Except ReadError α := do
  let (document, rest) := parse s
  let value ← codec.decode .json document
  if rest.any fun rest => (skipBlanks rest).isEmpty then return value
  else throw Document.malformed

end ImportAtlas.Json
