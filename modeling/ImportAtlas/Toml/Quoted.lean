import ImportAtlas.Text.Digits

/-!
# Quoted texts in TOML

A text stands between double quotes, with escapes, or between single quotes, without. Between
three quotes of a kind it may go over several lines, whose ends are kept as they are written; an end
of line right after the opening quotes does not count.

## Main definitions

* `Toml.quoted?`: the text in quotes at the front of a text, on one line
* `Toml.quotedLines?`: the same, on one line or several
-/

namespace ImportAtlas.Toml

/-- Whether a character is a blank within a line. -/
def isSpace (c : Char) : Bool := c == ' ' || c == '\t'

/-- Whether a character may stand in a text or a comment: control characters other than the tab may
not. -/
def isPrintable (c : Char) : Bool :=
  c == '\t' || (0x20 ≤ c.toNat && c.toNat != 0x7F)

/-- The text after an end of line, if there is one. -/
def endOfLine? : List Char → Option (List Char)
  | '\n' :: rest => some rest
  | '\r' :: '\n' :: rest => some rest
  | _ => none

/-- The character of a code with exactly `width` hexadecimal digits, and the rest. -/
def codePoint? (width : Nat) (cs : List Char) : Option (Char × List Char) := do
  let digits ← (cs.take width).mapM Text.hexValue?
  let n := Text.ofDigits 16 digits
  if digits.length = width ∧ (n < 0xD800 ∨ (0xDFFF < n ∧ n < 0x110000)) then
    return (Char.ofNat n, cs.drop width)
  else failure

/-- The character of an escape, after its backslash, and the rest. -/
def escape? : List Char → Option (Char × List Char)
  | [] => none
  | 'b' :: rest => some ('\x08', rest)
  | 't' :: rest => some ('\t', rest)
  | 'n' :: rest => some ('\n', rest)
  | 'f' :: rest => some ('\x0c', rest)
  | 'r' :: rest => some ('\r', rest)
  | 'e' :: rest => some ('\x1b', rest)
  | '"' :: rest => some ('"', rest)
  | '\\' :: rest => some ('\\', rest)
  | 'x' :: rest => codePoint? 2 rest
  | 'u' :: rest => codePoint? 4 rest
  | 'U' :: rest => codePoint? 8 rest
  | _ => none

/-- A text with its rest, `sofar` being the characters before in reverse. -/
def finish (sofar rest : List Char) : Option (String × List Char) :=
  some (String.ofList sofar.reverse, rest)

/-- The text up to a double quote, and the rest after it. -/
def basic? (fuel : Nat) (sofar cs : List Char) : Option (String × List Char) :=
  match fuel, cs with
  | 0, _ | _, [] => none
  | _ + 1, '"' :: rest => finish sofar rest
  | fuel + 1, '\\' :: rest =>
    match escape? rest with
    | some (c, rest) => basic? fuel (c :: sofar) rest
    | none => none
  | fuel + 1, c :: rest => if isPrintable c then basic? fuel (c :: sofar) rest else none

/-- The text up to a single quote, and the rest after it. -/
def literal? (cs : List Char) : Option (String × List Char) :=
  match cs.dropWhile (fun c => isPrintable c && c != '\'') with
  | '\'' :: rest => some (String.ofList (cs.takeWhile fun c => isPrintable c && c != '\''), rest)
  | _ => none

/-- The text after a backslash that ends a line: blanks and ends of lines are skipped. -/
def skipLines : List Char → List Char
  | '\n' :: rest => skipLines rest
  | '\r' :: '\n' :: rest => skipLines rest
  | ' ' :: rest => skipLines rest
  | '\t' :: rest => skipLines rest
  | cs => cs

/-- Closing quotes, three in a row, after which up to two more of the text stand before them. -/
def closing? (quote : Char) (sofar cs : List Char) : Option (String × List Char) :=
  let run := (cs.takeWhile (· == quote)).length
  if run < 3 then none
  else
    let kept := min (run - 3) 2
    finish (List.replicate kept quote ++ sofar) (cs.drop (kept + 3))

/-- The text up to three double quotes, and the rest after them. -/
def basicLines? (fuel : Nat) (sofar cs : List Char) : Option (String × List Char) :=
  match fuel with
  | 0 => none
  | fuel + 1 =>
    match closing? '"' sofar cs, cs with
    | some result, _ => some result
    | none, [] => none
    | none, '\\' :: rest =>
      match endOfLine? (rest.dropWhile isSpace) with
      | some rest => basicLines? fuel sofar (skipLines rest)
      | none =>
        match escape? rest with
        | some (c, rest) => basicLines? fuel (c :: sofar) rest
        | none => none
    | none, '\r' :: '\n' :: rest => basicLines? fuel ('\n' :: '\r' :: sofar) rest
    | none, c :: rest =>
      if c = '\n' ∨ isPrintable c then basicLines? fuel (c :: sofar) rest else none

/-- The text up to three single quotes, and the rest after them. -/
def literalLines? (fuel : Nat) (sofar cs : List Char) : Option (String × List Char) :=
  match fuel with
  | 0 => none
  | fuel + 1 =>
    match closing? '\'' sofar cs, cs with
    | some result, _ => some result
    | none, [] => none
    | none, '\r' :: '\n' :: rest => literalLines? fuel ('\n' :: '\r' :: sofar) rest
    | none, c :: rest =>
      if c = '\n' ∨ isPrintable c then literalLines? fuel (c :: sofar) rest else none

/-- The text after an end of line that does not count. -/
def skipFirstLine (cs : List Char) : List Char := (endOfLine? cs).getD cs

/-- The quoted text at the front of a text, on one line, and the rest. -/
def quoted? (fuel : Nat) : List Char → Option (String × List Char)
  | '"' :: rest => basic? fuel [] rest
  | '\'' :: rest => literal? rest
  | _ => none

/-- The quoted text at the front of a text, on one line or several, and the rest. -/
def quotedLines? (fuel : Nat) : List Char → Option (String × List Char)
  | '"' :: '"' :: '"' :: rest => basicLines? fuel [] (skipFirstLine rest)
  | '\'' :: '\'' :: '\'' :: rest => literalLines? fuel [] (skipFirstLine rest)
  | cs => quoted? fuel cs

end ImportAtlas.Toml
