import ImportAtlas.Codec.Record
import ImportAtlas.Toml.Quoted
import ImportAtlas.Toml.Scalar
import ImportAtlas.Toml.Table

/-!
# Reading TOML

A text consists of entries and of headers with entries below them. The whole of it is read before
any value is looked at, so a value of the wrong kind is reported only if the text is TOML.

## Main definitions

* `Toml.value?`: the value at the front of a text
* `Toml.sections?`: the headers of a text with their entries
* `Toml.parse?`: the document of a text
* `Toml.isSound`: whether the numbers of a document are in range and its dates are dates
* `Toml.read`: a value of a codec, from a text
-/

namespace ImportAtlas.Toml

open Codec (Document ReadError)
open Table (Entry Section)

/-- The text without the blanks of a line at its front. -/
def skipSpaces (cs : List Char) : List Char := cs.dropWhile isSpace

/-- The text after a comment, if one starts there. -/
def skipComment (cs : List Char) : List Char :=
  if cs.head? = some '#' then cs.dropWhile isPrintable else cs

/-- The rest of a line: blanks and a comment, up to the end of the line or of the text. -/
def restOfLine? (cs : List Char) : Option (List Char) :=
  match skipComment (skipSpaces cs) with
  | [] => some []
  | cs => endOfLine? cs

/-- The text after blanks, ends of lines and comments. -/
def skipGaps (fuel : Nat) (cs : List Char) : List Char :=
  match fuel with
  | 0 => cs
  | fuel + 1 =>
    let cs := skipComment (skipSpaces cs)
    match endOfLine? cs with
    | some rest => skipGaps fuel rest
    | none => cs

/-! ## Keys -/

/-- Whether a character may stand in a key without quotes. -/
def isBare (c : Char) : Bool :=
  Text.isDigit c || ('a' ≤ c && c ≤ 'z') || ('A' ≤ c && c ≤ 'Z') || c == '-' || c == '_'

/-- A key at the front of a text, and the rest. -/
def key? (fuel : Nat) (cs : List Char) : Option (String × List Char) :=
  match quoted? fuel cs with
  | some result => some result
  | none =>
    let bare := cs.takeWhile isBare
    if bare.isEmpty then none else some (String.ofList bare, cs.dropWhile isBare)

/-- The largest number of keys with dots between them. -/
def maxKeys : Nat := 80

/-- Keys with dots between them, at least one and at most `count`, after blanks; blanks after them
are skipped. -/
def keys? (fuel : Nat) (cs : List Char) : (count : Nat) → Option (List String × List Char)
  | 0 => none
  | count + 1 => do
    let (key, rest) ← key? fuel (skipSpaces cs)
    match skipSpaces rest with
    | '.' :: rest =>
      let (keys, rest) ← keys? fuel rest count
      return (key :: keys, rest)
    | rest => return ([key], rest)

/-- The entry of keys with dots between them. -/
def entryOf? (keys : List String) (value : Document) : Option Entry :=
  keys.getLast?.map fun key => ⟨keys.dropLast, key, value⟩

/-! ## Values -/

/-- The number of brackets that may be open at once. -/
def maxDepth : Nat := 80

/-- Whether a character ends a value without quotes. -/
def endsScalar (c : Char) : Bool :=
  isSpace c || c == '\n' || c == '\r' || c == ',' || c == ']' || c == '}' || c == '#' ||
    c == '[' || c == '{' || c == '=' || c == '"' || c == '\''

/-- The characters of a value without quotes, and the rest. A blank between a date and a time
belongs to it. -/
def splitScalar (cs : List Char) : List Char × List Char :=
  let word := cs.takeWhile (!endsScalar ·)
  match cs.dropWhile (!endsScalar ·) with
  | ' ' :: c :: rest =>
    if Text.isDigit c && (day? word).any (·.2.isEmpty) then
      (word ++ ' ' :: (c :: rest).takeWhile (!endsScalar ·),
        (c :: rest).dropWhile (!endsScalar ·))
    else (word, ' ' :: c :: rest)
  | rest => (word, rest)

/-- The document of a table between braces. -/
def bracedDocument? (entries : List Entry) : Option Document :=
  ((Table.fresh .header).addEntries? entries).map Table.toDocument

mutual

/-- The value at the front of a text within `depth` open brackets, and the rest. -/
def value? (fuel depth : Nat) (cs : List Char) : Option (Document × List Char) :=
  match fuel with
  | 0 => none
  | fuel + 1 =>
    match cs with
    | '[' :: rest =>
      if maxDepth ≤ depth then none
      else (items? fuel (depth + 1) rest).map fun (items, rest) => (.sequence items none, rest)
    | '{' :: rest =>
      if maxDepth ≤ depth then none
      else do
        let (entries, rest) ← entries? fuel (depth + 1) rest
        let document ← bracedDocument? entries
        return (document, rest)
    | c :: _ =>
      if c = '"' ∨ c = '\'' then
        (quotedLines? fuel cs).map fun (s, rest) => (.ofText s, rest)
      else
        let (word, rest) := splitScalar cs
        (scalar? word).map fun document => (document, rest)
    | [] => none

/-- The items of an array up to its closing bracket, a comma after the last one being allowed. -/
def items? (fuel depth : Nat) (cs : List Char) : Option (List Document × List Char) :=
  match fuel with
  | 0 => none
  | fuel + 1 =>
    match skipGaps fuel cs with
    | ']' :: rest => some ([], rest)
    | cs => do
      let (item, rest) ← value? fuel depth cs
      match skipGaps fuel rest with
      | ',' :: rest =>
        let (items, rest) ← items? fuel depth rest
        return (item :: items, rest)
      | ']' :: rest => return ([item], rest)
      | _ => failure

/-- The entries between braces up to the closing one, a comma after the last one being allowed. -/
def entries? (fuel depth : Nat) (cs : List Char) : Option (List Entry × List Char) :=
  match fuel with
  | 0 => none
  | fuel + 1 =>
    match skipGaps fuel cs with
    | '}' :: rest => some ([], rest)
    | cs => do
      let (entry, rest) ← entry? fuel depth (skipGaps fuel) cs
      match skipGaps fuel rest with
      | ',' :: rest =>
        let (entries, rest) ← entries? fuel depth rest
        return (entry :: entries, rest)
      | '}' :: rest => return ([entry], rest)
      | _ => failure

/-- Keys, an equals sign and a value. What may stand on both sides of the equals sign is skipped by
`skip`: blanks alone outside of braces, and ends of lines and comments too between them. -/
def entry? (fuel depth : Nat) (skip : List Char → List Char) (cs : List Char) :
    Option (Entry × List Char) :=
  match fuel with
  | 0 => none
  | fuel + 1 => do
    let (keys, rest) ← keys? fuel cs maxKeys
    let rest ← mark? '=' (skip rest)
    let (value, rest) ← value? fuel depth (skip rest)
    let entry ← entryOf? keys value
    return (entry, rest)

end

/-! ## Texts -/

/-- A header with its rest of line; whether it starts one more table of a series, and its keys. -/
def header? (fuel : Nat) : List Char → Option ((Bool × List String) × List Char)
  | '[' :: '[' :: rest => do
    let (keys, rest) ← keys? fuel rest maxKeys
    let rest ← mark? ']' rest
    let rest ← mark? ']' rest
    return ((true, keys), ← restOfLine? rest)
  | '[' :: rest => do
    let (keys, rest) ← keys? fuel rest maxKeys
    let rest ← mark? ']' rest
    return ((false, keys), ← restOfLine? rest)
  | _ => none

/-- The entries up to the next header or the end of the text, and the sections after them. -/
def sections? (fuel : Nat) (cs : List Char) : Option (List Entry × List Section) :=
  match fuel with
  | 0 => none
  | fuel + 1 =>
    match skipGaps fuel cs with
    | [] => some ([], [])
    | '[' :: rest => do
      let ((inSeries, keys), rest) ← header? fuel ('[' :: rest)
      let key ← keys.getLast?
      let (entries, sections) ← sections? fuel rest
      return ([], ⟨inSeries, keys.dropLast, key, entries⟩ :: sections)
    | cs => do
      let (entry, rest) ← entry? fuel 0 skipSpaces cs
      let rest ← restOfLine? rest
      let (entries, sections) ← sections? fuel rest
      return (entry :: entries, sections)

/-- The value under the name that a date is read as, if the first entry has that name. -/
def datedValue? : List (Document × Document) → Option Document
  | (.text (.ok name) _, value) :: _ => if name = Codec.dateName then some value else none
  | _ => none

/-- Whether a document is the text of a date. -/
def isDateText : Document → Bool
  | .text (.ok s) _ => (date? s.toList).isSome
  | _ => false

mutual

/-- Whether all numbers of a document are in range, and all its tables that stand for dates give the
texts of dates. What such a table holds besides the date is not looked at. -/
def isSound : Document → Bool
  | .scalar read _ => scalarInRange read
  | .sequence items _ => areSound items
  | .map entries _ =>
    match datedValue? entries with
    | some value => isDateText value
    | none => entriesSound entries
  | _ => true

/-- Whether all items are sound. -/
def areSound : List Document → Bool
  | [] => true
  | item :: items => isSound item && areSound items

/-- Whether the values of all entries are sound. -/
def entriesSound : List (Document × Document) → Bool
  | [] => true
  | (_, value) :: entries => isSound value && entriesSound entries

end

/-- The mark that may stand at the front of a text to say how it is encoded. -/
def byteOrderMark : Char := '\ufeff'

/-- The document of a text. -/
def parse? (s : String) : Option Document := do
  let cs := match s.toList with
    | [] => []
    | c :: rest => if c = byteOrderMark then rest else c :: rest
  let (entries, sections) ← sections? (3 * cs.length + 3) cs
  let table ← (Table.fresh .header).addEntries? entries
  let table ← sections.foldlM Table.addSection? table
  return table.toDocument

/-- The value of a text. A text that is not sound is malformed, but that matters only if the value
cannot be read. -/
def read {α : Type} (codec : Codec α) (s : String) : Except ReadError α :=
  match parse? s with
  | none => .error (.fault .malformed)
  | some document =>
    match codec.decode .toml document with
    | .ok value => .ok value
    | .error why => .error (if isSound document then why else .fault .malformed)

end ImportAtlas.Toml
