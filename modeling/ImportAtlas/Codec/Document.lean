import ImportAtlas.Codec.ReadError
import ImportAtlas.Text.Visible

/-!
# Documents

A document is what a reader makes of a text before it is known which kind of value is wanted. A
text that goes wrong somewhere gives a document too: the fault is kept at its place, so that
whatever is wrong with the value before that place is reported first, and a fault in a part that
nobody asks for is found only by skipping over it.

Some texts can be skipped but not read, as a number that is too large; others can be neither
skipped nor read. Leaves therefore say what reading them gives and what skipping them gives.

## Main definitions

* `Scalar`: simple values other than texts
* `Document`: trees of values with the faults at their places
* `Document.found`: what stands somewhere, when something else was wanted
* `Document.skip`: the first fault of a document that is skipped
-/

namespace ImportAtlas.Codec

/-- A simple value that is neither null nor a text. -/
inductive Scalar where
  | boolean (value : Bool)
  | integer (value : Int)
  /-- A number with a fraction or an exponent, as it is shown. -/
  | real (shown : String)
  /-- A date or a time, as it is shown. -/
  | date (shown : String)
  deriving DecidableEq, Repr

/-- A tree of values with the faults at their places. -/
inductive Document where
  /-- No value starts here. -/
  | broken (why : ReadError)
  /-- Null, or a beginning of it that goes wrong. -/
  | null (fault : Option ReadError)
  | scalar (read : Except ReadError Scalar) (skip : Option ReadError)
  | text (read : Except ReadError String) (skip : Option ReadError)
  /-- Items, with what goes wrong after the last one. -/
  | sequence (items : List Document) (ending : Option ReadError)
  /-- Names and values, with what goes wrong after the last one. -/
  | map (entries : List (Document × Document)) (ending : Option ReadError)

namespace Document

instance : Inhabited Document := ⟨.null none⟩

/-- A text that reads well. -/
def ofText (s : String) : Document := .text (.ok s) none

/-- A simple value that reads well. -/
def ofScalar (value : Scalar) : Document := .scalar (.ok value) none

/-- The text ends here. -/
def ended : ReadError := .fault .ended

/-- The text goes on here in a way that no document does. -/
def malformed : ReadError := .fault .malformed

/-- A simple value, when something else was wanted. A date counts as a map. -/
def foundScalar : Scalar → Found
  | .boolean value => .boolean value
  | .integer value => .integer value
  | .real shown => .real shown
  | .date _ => .map

/-- What stands in a place, when something else was wanted. Lists and maps are not looked into. -/
def found : Document → Except ReadError Found
  | .broken why => .error why
  | .null none => .ok .null
  | .null (some why) => .error why
  | .scalar (.ok value) _ => .ok (foundScalar value)
  | .scalar (.error why) _ => .error why
  | .text (.ok s) _ => .ok (.text (Text.quoted s))
  | .text (.error why) _ => .error why
  | .sequence .. => .ok .sequence
  | .map .. => .ok .map

/-- The error of finding a document where something else is wanted. -/
def unexpected (wanted : String) (document : Document) : ReadError :=
  match document.found with
  | .ok found => .mismatch (.wrongType found wanted)
  | .error why => why

/-- A document read as a text. -/
def asText (wanted : String) : Document → Except ReadError String
  | .text read _ => read
  | document => .error (document.unexpected wanted)

/-- A document read as the name of a member. -/
def asName : Document → Except ReadError String
  | .text read _ => read
  | .broken why => .error why
  | _ => .error malformed

/-- What goes wrong when the name of a member is skipped. -/
def skipName : Document → Option ReadError
  | .text _ skip => skip
  | .broken why => some why
  | _ => some malformed

mutual

/-- The first fault of a document that is skipped. -/
def skip : Document → Option ReadError
  | .broken why => some why
  | .null fault => fault
  | .scalar _ fault => fault
  | .text _ fault => fault
  | .sequence items ending => (skipItems items).or ending
  | .map entries ending => (skipEntries entries).or ending

/-- The first fault of items that are skipped. -/
def skipItems : List Document → Option ReadError
  | [] => none
  | item :: items => (skip item).or (skipItems items)

/-- The first fault of entries that are skipped. -/
def skipEntries : List (Document × Document) → Option ReadError
  | [] => none
  | (name, value) :: entries => ((skipName name).or (skip value)).or (skipEntries entries)

end

end Document

end ImportAtlas.Codec
