import ImportAtlas.Codec.Basic

/-!
# Records

A record is written as an object with a member for each of its fields, in their order. It is read
from an object whose members stand in any order, or from an array of its fields in their order. A
field that is left out may have a value for that case. Members with other names are skipped.

## Main definitions

* `Codec.Absence`: what a field that is left out stands for
* `Codec.RecordField`, `Codec.RecordFields`: a field, and the fields of a record
* `Codec.RecordFields.Draft`: the fields read so far
* `Codec.record`: the codec of a record
-/

namespace ImportAtlas.Codec

/-- What a field that is left out stands for. -/
inductive Absence (α : Type) where
  /-- The field has to be there. -/
  | required
  /-- The field may be left out where fields are named. -/
  | ifNamed (value : α)
  /-- The field may be left out, in an array together with all that follow. -/
  | always (value : α)

/-- The value of a field left out of an object. -/
def Absence.inObject {α : Type} : Absence α → Option α
  | .required => none
  | .ifNamed value | .always value => some value

/-- The value of a field left out of an array. -/
def Absence.inArray {α : Type} : Absence α → Option α
  | .required | .ifNamed _ => none
  | .always value => some value

/-- A field of a record. -/
structure RecordField (α : Type) where
  name : String
  codec : Codec α
  absence : Absence α := .required
  /-- Whether the field is written. -/
  isWritten : α → Bool := fun _ => true

/-- A field that has to be there. -/
def field {α : Type} (name : String) (codec : Codec α) : RecordField α :=
  ⟨name, codec, .required, fun _ => true⟩

/-- A field that may be left out, with its value for that case. -/
def defaulted {α : Type} (name : String) (codec : Codec α) (value : α) : RecordField α :=
  ⟨name, codec, .always value, fun _ => true⟩

/-- A field without a value that may be left out where fields are named. -/
def nullable {α : Type} (name : String) (codec : Codec α) : RecordField (Option α) :=
  ⟨name, codec.optional, .ifNamed none, fun _ => true⟩

/-- The fields of a record whose values form the type `τ`, a product. -/
inductive RecordFields : Type → Type 1 where
  | nil : RecordFields Unit
  | cons {α τ : Type} (head : RecordField α) (tail : RecordFields τ) : RecordFields (α × τ)

namespace RecordFields

/-- The number of fields. -/
def size {τ : Type} : RecordFields τ → Nat
  | .nil => 0
  | .cons _ tail => tail.size + 1

/-- The members of the object for the values of the fields. -/
def encode {τ : Type} : RecordFields τ → τ → List (String × Json)
  | .nil, _ => []
  | .cons head tail, (value, values) =>
    if head.isWritten value then (head.name, head.codec.encode value) :: tail.encode values
    else tail.encode values

/-- The fields read so far, each with its value once it has been read. -/
def Draft {τ : Type} : RecordFields τ → Type
  | .nil => Unit
  | .cons (α := α) _ tail => Option α × tail.Draft

/-- The draft with nothing read. -/
def blank {τ : Type} : (fields : RecordFields τ) → fields.Draft
  | .nil => ()
  | .cons _ tail => (none, tail.blank)

/-- Reads the member of a name into a draft. A field that has been read already cannot be read
again, whatever stands there, and a member of another name is skipped. -/
def readMember {τ : Type} (dialect : Dialect) (name : String) (value : Document) :
    (fields : RecordFields τ) → fields.Draft → Except ReadError fields.Draft
  | .nil, draft =>
    match value.skip with
    | some why => .error why
    | none => .ok draft
  | .cons (α := α) head tail, draft =>
    let known : Option α := draft.1
    let others : tail.Draft := draft.2
    if head.name = name then
      match known with
      | some _ => .error (.mismatch (.repeated name))
      | none => (fun value => (some value, others)) <$> head.codec.decode dialect value
    else (fun others => (known, others)) <$> tail.readMember dialect name value others

/-- Reads members into a draft, up to the end of their object. -/
def readMembers {τ : Type} (dialect : Dialect) (fields : RecordFields τ)
    (ending : Option ReadError) :
    List (Document × Document) → fields.Draft → Except ReadError fields.Draft
  | [], draft =>
    match ending with
    | some why => .error why
    | none => .ok draft
  | (name, value) :: members, draft => do
    let name ← name.asName
    let draft ← fields.readMember dialect name value draft
    fields.readMembers dialect ending members draft

/-- The values of a draft, with those of fields left out filled in. -/
def complete {τ : Type} : (fields : RecordFields τ) → fields.Draft → Except ReadError τ
  | .nil, _ => .ok ()
  | .cons (α := α) head tail, draft =>
    let known : Option α := draft.1
    let others : tail.Draft := draft.2
    match known.or head.absence.inObject with
    | none => .error (.mismatch (.missing head.name))
    | some value => (fun values => (value, values)) <$> tail.complete others

/-- Checks that an array of fields ends after the last of them. -/
def checkEnding (items : List Document) (ending : Option ReadError) : Except ReadError Unit :=
  if !items.isEmpty then .error Document.malformed
  else match ending with
    | some why => .error why
    | none => .ok ()

/-- Reads an array of fields, `place` of them having been read before; `wanted` is the words for
the record and its size. -/
def readArray {τ : Type} (dialect : Dialect) (wanted : String) (ending : Option ReadError) :
    (fields : RecordFields τ) → (place : Nat) → List Document → Except ReadError τ
  | .nil, _, items => checkEnding items ending
  | .cons head tail, place, [] =>
    match ending, head.absence.inArray with
    | some why, _ => .error why
    | none, none => .error (.mismatch (.tooShort place wanted))
    | none, some value => do
      let values ← tail.readArray dialect wanted ending (place + 1) []
      return (value, values)
  | .cons head tail, place, item :: items => do
    let value ← head.codec.decode dialect item
    let values ← tail.readArray dialect wanted ending (place + 1) items
    return (value, values)

end RecordFields

/-- A number of elements in words. -/
def elementCount (n : Nat) : String :=
  toString n ++ (if n = 1 then " element" else " elements")

/-- Records of the given name and fields: `make` makes one of the values of its fields, and
`parts` gives these. -/
def record {α τ : Type} (name : String) (fields : RecordFields τ) (make : τ → α) (parts : α → τ) :
    Codec α where
  encode value := .object (fields.encode (parts value))
  decode dialect
    | .map members ending => do
      let draft ← fields.readMembers dialect ending members fields.blank
      let values ← fields.complete draft
      return make values
    | .sequence items ending =>
      make <$> fields.readArray dialect
        ("struct " ++ name ++ " with " ++ elementCount fields.size) ending 0 items
    | document => .error (document.unexpected ("struct " ++ name))

end ImportAtlas.Codec
