/-!
# Splitting, joining and replacing

Texts are taken apart as lists of characters. Splitting keeps empty pieces: a text with `n`
separators has `n + 1` pieces, and joining them with the separator gives the text back.

## Main definitions

* `Text.split`: the pieces between the characters that a test accepts
* `Text.join`: the pieces with a separator between them
* `Text.lineCount`: the number of lines of a text
-/

namespace ImportAtlas.Text

/-- The pieces of a text between the characters that `sep` accepts, empty pieces included. -/
def split (sep : Char → Bool) : List Char → List (List Char)
  | [] => [[]]
  | c :: cs =>
    if sep c then [] :: split sep cs
    else match split sep cs with
      | [] => [[c]]
      | piece :: pieces => (c :: piece) :: pieces

theorem split_ne_nil (sep : Char → Bool) (cs : List Char) : split sep cs ≠ [] := by
  cases cs with
  | nil => simp [split]
  | cons c cs =>
    simp only [split]
    split
    · simp
    · split <;> simp

/-- The pieces of a text between the commas, or any other single character. -/
def splitAtChar (sep : Char) (s : String) : List String :=
  (split (· == sep) s.toList).map String.ofList

/-- The pieces with `sep` between each two neighbours. -/
def join (sep : List Char) : List (List Char) → List Char
  | [] => []
  | [piece] => piece
  | piece :: pieces => piece ++ sep ++ join sep pieces

/-- The texts with `sep` between each two neighbours. -/
def joinWith (sep : String) (pieces : List String) : String :=
  String.ofList (join sep.toList (pieces.map String.toList))

/-- The text with every `old` character replaced by `new`. -/
def replaceChar (old new : Char) (cs : List Char) : List Char :=
  cs.map fun c => if c = old then new else c

/-- The text with every `old` character replaced by the characters `new`. -/
def replaceWith (old : Char) (new : List Char) (cs : List Char) : List Char :=
  cs.flatMap fun c => if c = old then new else [c]

/-- The number of lines of a text. A line feed ends a line, so one at the very end starts none. -/
def lineCount (s : String) : Nat :=
  s.toList.count '\n' + (if s.toList.getLast?.all (· == '\n') then 0 else 1)

end ImportAtlas.Text
