import ImportAtlas.Codec.Document
import ImportAtlas.Dictionary
import ImportAtlas.Json.Basic
import ImportAtlas.Time.Reading

/-!
# Codecs

A codec says how values of a kind are written as JSON and read from a document. Values are read
from two kinds of documents, which differ only in how the name of a choice may be written.

## Main definitions

* `Dialect`: the kinds of documents
* `Codec`: a writer with its reader
* `Codec.text`, `Codec.natural`, `Codec.boolean`, `Codec.instant`: simple values
* `Codec.list`, `Codec.dictionary`, `Codec.optional`: values made of others
* `Codec.choice`: one of finitely many names
-/

namespace ImportAtlas

open Codec (Document ReadError Scalar Mismatch)

/-- The kinds of documents. -/
inductive Dialect where
  | json
  | toml
  deriving DecidableEq, Repr

/-- How values of a kind are written and read. -/
structure Codec (α : Type) where
  encode : α → Json
  decode : Dialect → Document → Except ReadError α

namespace Codec

variable {α : Type}

/-! ## Simple values -/

/-- Texts, `wanted` being the words for them. -/
def textAs (wanted : String) : Codec String where
  encode := .text
  decode _ document := document.asText wanted

/-- Texts. -/
def text : Codec String := textAs "a string"

/-- Paths of files, which are texts. -/
def path : Codec String := textAs "path string"

/-- Reads a truth value. -/
def readBoolean : Document → Except ReadError Bool
  | .scalar (.ok (.boolean value)) _ => .ok value
  | document => .error (document.unexpected "a boolean")

/-- Truth values. -/
def boolean : Codec Bool where
  encode := .boolean
  decode _ document := readBoolean document

/-- Reads a whole number from zero to a bound. -/
def readNatural (bound : Nat) (wanted : String) : Document → Except ReadError Nat
  | .scalar (.ok (.integer value)) _ =>
    if 0 ≤ value ∧ value ≤ bound then .ok value.toNat
    else .error (.mismatch (.wrongValue (.integer value) wanted))
  | document => .error (document.unexpected wanted)

/-- Whole numbers of 64 bits. -/
def count : Codec Nat where
  encode := .natural
  decode _ document := readNatural Text.maxCount "usize" document

/-- Whole numbers of 32 bits. -/
def line : Codec Nat where
  encode := .natural
  decode _ document := readNatural Text.maxLine "u32" document

/-- Points in time. -/
def instant : Codec Instant where
  encode value := .text value.format
  decode _ document := do
    let s ← document.asText "an RFC 3339 formatted date and time string"
    (Instant.read s).mapError fun fault => .mismatch (.other fault.message)

/-! ## Values made of others -/

/-- Reads items up to the end of their sequence. -/
def readItems (read : Document → Except ReadError α) (ending : Option ReadError) :
    List Document → Except ReadError (List α)
  | [] => match ending with
    | none => .ok []
    | some why => .error why
  | item :: items => do
    let value ← read item
    let values ← readItems read ending items
    return value :: values

/-- Lists. -/
def list (codec : Codec α) : Codec (List α) where
  encode values := .array (values.map codec.encode)
  decode dialect
    | .sequence items ending => readItems (codec.decode dialect) ending items
    | document => .error (document.unexpected "a sequence")

/-- Reads entries up to the end of their map. -/
def readEntries (read : Document → Except ReadError α) (ending : Option ReadError) :
    List (Document × Document) → Except ReadError (List (String × α))
  | [] => match ending with
    | none => .ok []
    | some why => .error why
  | (name, value) :: entries => do
    let name ← name.asName
    let value ← read value
    let rest ← readEntries read ending entries
    return (name, value) :: rest

/-- The name of the one entry that a date is read as. -/
def dateName : String := "$__toml_private_datetime"

/-- Dictionaries. Of several entries of one name the last one counts. -/
def dictionary (codec : Codec α) : Codec (Dictionary α) where
  encode values := .object (values.entries.map fun entry => (entry.1, codec.encode entry.2))
  decode dialect
    | .map entries ending =>
      Dictionary.ofEntries <$> readEntries (codec.decode dialect) ending entries
    | .scalar (.ok (.date shown)) _ =>
      Dictionary.ofEntries <$> readEntries (codec.decode dialect) none
        [(.ofText dateName, .ofText shown)]
    | document => .error (document.unexpected "a map")

/-- Values that may be null. -/
def optional (codec : Codec α) : Codec (Option α) where
  encode := Json.optional codec.encode
  decode dialect
    | .null none => .ok none
    | .null (some why) => .error why
    | document => some <$> codec.decode dialect document

/-! ## Choices -/

/-- The choice of a name. -/
def findChoice (choices : List α) (name : α → String) (word : String) : Except ReadError α :=
  match choices.find? fun choice => name choice == word with
  | some choice => .ok choice
  | none => .error (.mismatch (.unknownChoice word (choices.map name)))

/-- Checks what stands beside a name in JSON, which is nothing. -/
def checkNull : Document → Except ReadError Unit
  | .null none => .ok ()
  | .null (some why) => .error why
  | document => .error (document.unexpected "unit")

/-- Reads a choice from JSON: its name, or an object that gives null for its name. -/
def readChoiceJson (choices : List α) (name : α → String) : Document → Except ReadError α
  | .broken why => .error why
  | .text read _ => read.bind (findChoice choices name)
  | .map [] none => .error Document.malformed
  | .map [] (some why) => .error why
  | .map ((key, value) :: more) ending => do
    let word ← key.asName
    let choice ← findChoice choices name word
    checkNull value
    if !more.isEmpty then throw Document.malformed
    match ending with
    | some why => throw why
    | none => return choice
  | _ => .error Document.malformed

/-- A mismatch in words of its own. -/
def otherError (words : String) : ReadError := .mismatch (.other words)

/-- The word for the kind of a simple value in TOML. -/
def tomlKind : Scalar → String
  | .boolean _ => "boolean"
  | .integer _ => "integer"
  | .real _ => "float"
  | .date _ => "datetime"

/-- Checks what stands beside a name in TOML, which is something empty. -/
def checkEmpty : Document → Except ReadError Unit
  | .sequence [] _ => .ok ()
  | .sequence .. => .error (otherError "expected empty array")
  | .map [] _ => .ok ()
  | .map .. => .error (otherError "expected empty table")
  | .text .. => .error (otherError "expected table, found string")
  | .scalar (.ok value) _ => .error (otherError ("expected table, found " ++ tomlKind value))
  | .scalar (.error why) _ => .error why
  | .broken why => .error why
  | .null _ => .error Document.malformed

/-- Reads a choice from TOML: its name, or a table that gives something empty for its name. -/
def readChoiceToml (choices : List α) (name : α → String) : Document → Except ReadError α
  | .broken why => .error why
  | .text read _ => read.bind (findChoice choices name)
  | .map [] _ => .error (otherError "wanted exactly 1 element, found 0 elements")
  | .map [(key, value)] _ => do
    let word ← key.asName
    let choice ← findChoice choices name word
    checkEmpty value
    return choice
  | .map .. => .error (otherError "wanted exactly 1 element, more than 1 element")
  | _ => .error (otherError "wanted string or table")

/-- One of finitely many choices, each with its name. -/
def choice (choices : List α) (name : α → String) : Codec α where
  encode value := .text (name value)
  decode
    | .json => readChoiceJson choices name
    | .toml => readChoiceToml choices name

end Codec

end ImportAtlas
