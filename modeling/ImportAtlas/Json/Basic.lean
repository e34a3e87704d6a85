import ImportAtlas.Text.Digits

/-!
# JSON values

A JSON value is written in one of two layouts: compact, without any blanks, or spread, with each
item and each member on a line of its own, indented by two blanks for each level. Between quotes
every character stands for itself except quotes, backslashes and control characters.

## Main definitions

* `Json`: values
* `Json.Layout`: the two layouts
* `Json.write`: the characters of a value
* `Json.compact`, `Json.pretty`: the text of a value
-/

namespace ImportAtlas

/-- A JSON value. The only numbers needed are whole ones. -/
inductive Json where
  | null
  | boolean (value : Bool)
  | integer (value : Int)
  | text (value : String)
  | array (items : List Json)
  /-- Members with their names, in order. -/
  | object (members : List (String × Json))

namespace Json

instance : Inhabited Json := ⟨.null⟩

/-- A whole number that is not negative. -/
def natural (n : Nat) : Json := .integer n

/-- A value or null. -/
def optional {α : Type} (encode : α → Json) : Option α → Json
  | none => .null
  | some value => encode value

/-- An array of texts. -/
def texts (items : List String) : Json := .array (items.map .text)

/-- How a value is spread over lines. -/
inductive Layout where
  | compact
  | spread
  deriving DecidableEq, Repr

/-- What stands before an item at a depth, and before the closing bracket of the depth above. -/
def Layout.newline : Layout → Nat → List Char
  | .compact, _ => []
  | .spread, depth => '\n' :: List.replicate (2 * depth) ' '

/-- What stands between a name and its value. -/
def Layout.colon : Layout → List Char
  | .compact => [':']
  | .spread => [':', ' ']

/-- A digit of base sixteen, in small letters. -/
def hexDigit (n : Nat) : Char := Nat.digitChar n

/-- The characters that stand for a character between quotes. -/
def escape (c : Char) : List Char :=
  match c with
  | '"' => ['\\', '"']
  | '\\' => ['\\', '\\']
  | '\x08' => ['\\', 'b']
  | '\x0c' => ['\\', 'f']
  | '\n' => ['\\', 'n']
  | '\r' => ['\\', 'r']
  | '\t' => ['\\', 't']
  | c =>
    if c.toNat < 0x20 then
      ['\\', 'u', '0', '0', hexDigit (c.toNat / 16), hexDigit (c.toNat % 16)]
    else [c]

/-- A text between quotes. -/
def writeText (s : String) : List Char :=
  '"' :: s.toList.flatMap escape ++ ['"']

/-- A whole number. -/
def writeInteger (n : Int) : List Char :=
  if n < 0 then '-' :: (Text.natural n.natAbs).toList else (Text.natural n.natAbs).toList

/-- A truth value. -/
def writeBoolean (value : Bool) : List Char :=
  if value then ['t', 'r', 'u', 'e'] else ['f', 'a', 'l', 's', 'e']

mutual

/-- The characters of a value that stands at a depth. -/
def write (layout : Layout) (depth : Nat) : Json → List Char
  | .null => ['n', 'u', 'l', 'l']
  | .boolean value => writeBoolean value
  | .integer value => writeInteger value
  | .text value => writeText value
  | .array [] => ['[', ']']
  | .array (item :: items) =>
    '[' :: (layout.newline (depth + 1) ++ write layout (depth + 1) item ++
      (writeItems layout (depth + 1) items ++ (layout.newline depth ++ [']'])))
  | .object [] => ['{', '}']
  | .object ((name, value) :: members) =>
    '{' :: (layout.newline (depth + 1) ++ writeText name ++ layout.colon ++
      write layout (depth + 1) value ++
      (writeMembers layout (depth + 1) members ++ (layout.newline depth ++ ['}'])))

/-- Further items of an array, each after a comma. -/
def writeItems (layout : Layout) (depth : Nat) : List Json → List Char
  | [] => []
  | item :: items =>
    ',' :: (layout.newline depth ++ write layout depth item ++ writeItems layout depth items)

/-- Further members of an object, each after a comma. -/
def writeMembers (layout : Layout) (depth : Nat) : List (String × Json) → List Char
  | [] => []
  | (name, value) :: members =>
    ',' :: (layout.newline depth ++ writeText name ++ layout.colon ++ write layout depth value ++
      writeMembers layout depth members)

end

/-- The text of a value without blanks. -/
def compact (json : Json) : String := String.ofList (json.write .compact 0)

/-- The text of a value spread over lines. -/
def pretty (json : Json) : String := String.ofList (json.write .spread 0)

end Json

end ImportAtlas
