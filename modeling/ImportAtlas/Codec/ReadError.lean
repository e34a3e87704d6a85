/-!
# Why a document cannot be read

A text can fail to be a document, by ending too early or by being malformed, and a document can
fail to be a value of the wanted kind. The first of these is a `Fault`, the second a `Mismatch`.

## Main definitions

* `Codec.Fault`: why a text is no document
* `Codec.Found`: what stands where something else was wanted
* `Codec.Mismatch`: why a document is no value of the wanted kind
* `Codec.ReadError`: either of the two
-/

namespace ImportAtlas.Codec

/-- Why a text is no document. -/
inductive Fault where
  /-- The text ends inside the document. -/
  | ended
  /-- The text goes on in a way that no document does. -/
  | malformed
  deriving DecidableEq, Repr

/-- What stands where something else was wanted. -/
inductive Found where
  | null
  | boolean (value : Bool)
  | integer (value : Int)
  /-- A number with a fraction or an exponent, as it is shown. -/
  | real (shown : String)
  /-- A text, with the quoted form in which it is shown. -/
  | text (quoted : String)
  | sequence
  | map
  /-- Anything else, in words. -/
  | other (words : String)
  deriving DecidableEq, Repr

/-- The words for what was found. -/
def Found.message : Found → String
  | .null => "null"
  | .boolean value => "boolean `" ++ (if value then "true" else "false") ++ "`"
  | .integer value => "integer `" ++ toString value ++ "`"
  | .real shown => "floating point `" ++ shown ++ "`"
  | .text quoted => "string " ++ quoted
  | .sequence => "sequence"
  | .map => "map"
  | .other words => words

/-- Why a document is no value of the wanted kind. -/
inductive Mismatch where
  /-- Something of another kind stands there. -/
  | wrongType (found : Found) (wanted : String)
  /-- Something of the right kind stands there, out of range. -/
  | wrongValue (found : Found) (wanted : String)
  /-- A list of the fields of a record ends before a field that it needs. -/
  | tooShort (length : Nat) (wanted : String)
  /-- A record lacks a field. -/
  | missing (field : String)
  /-- A record has a field twice. -/
  | repeated (field : String)
  /-- A name is none of the names that may stand there. -/
  | unknownChoice (name : String) (choices : List String)
  /-- Anything else, in words. -/
  | other (words : String)
  deriving DecidableEq, Repr

/-- The names that may stand somewhere, in words. -/
def choicesMessage (choices : List String) : String :=
  match choices.map fun name => "`" ++ name ++ "`" with
  | [] => "there are no variants"
  | [one] => "expected " ++ one
  | [one, two] => "expected " ++ one ++ " or " ++ two
  | one :: more => "expected one of " ++ more.foldl (fun text name => text ++ ", " ++ name) one

/-- A mismatch in words. -/
def Mismatch.message : Mismatch → String
  | .wrongType found wanted => "invalid type: " ++ found.message ++ ", expected " ++ wanted
  | .wrongValue found wanted => "invalid value: " ++ found.message ++ ", expected " ++ wanted
  | .tooShort length wanted => "invalid length " ++ toString length ++ ", expected " ++ wanted
  | .missing field => "missing field `" ++ field ++ "`"
  | .repeated field => "duplicate field `" ++ field ++ "`"
  | .unknownChoice name choices => "unknown variant `" ++ name ++ "`, " ++ choicesMessage choices
  | .other words => words

/-- Why a text cannot be read as a value of the wanted kind. -/
inductive ReadError where
  | fault (why : Fault)
  | mismatch (why : Mismatch)
  deriving DecidableEq, Repr

/-- A read error in words. -/
def ReadError.message : ReadError → String
  | .fault .ended => "unexpected end of input"
  | .fault .malformed => "malformed input"
  | .mismatch why => why.message

end ImportAtlas.Codec
