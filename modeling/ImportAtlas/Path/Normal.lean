import ImportAtlas.Text.Split

/-!
# Normal forms of repository paths

A path is a walk through directories: a name goes down into a directory, `..` goes up, and `.`
and empty segments stay. Either slash separates segments. The normal form keeps the net movement
only: the climbs that leave the start first, the names that remain after them, single `/` between.
Paths are compared by their normal forms, and a normal form that climbs names no file of a
repository.

## Main definitions

* `Path.normalize`: the normal form of a path
* `Path.parent`: the directory part of a normal form
* `Path.under`: a path taken from a directory
-/

namespace ImportAtlas.Path

open Text

/-- Whether a character separates path segments: the slash and the backslash do. -/
def isSeparator (c : Char) : Bool := c == '/' || c == '\\'

/-- The segments of a path, empty ones included. -/
def segments (path : List Char) : List (List Char) :=
  split isSeparator path

/-- The segment that stays in the directory. -/
def here : List Char := ['.']

/-- The segment that goes to the directory above. -/
def up : List Char := ['.', '.']

/-- The trail after one more segment. A trail lists the segments walked, the latest first; going
up takes back the latest name, and with no name left the climb is kept. -/
def walk (trail : List (List Char)) (segment : List Char) : List (List Char) :=
  if segment = [] ∨ segment = here then trail
  else if segment = up then
    match trail with
    | [] => [up]
    | last :: rest => if last = up then up :: trail else rest
  else segment :: trail

/-- The segments left of a path after every step back has been taken. -/
def collapse (segments : List (List Char)) : List (List Char) :=
  (segments.foldl walk []).reverse

/-- The normal form of a path, on characters. -/
def normalChars (path : List Char) : List Char :=
  join ['/'] (collapse (segments path))

/-- The normal form of a path: `/` between segments, no empty and no `.` segment, and `..` only
at the front. -/
def normalize (path : String) : String :=
  String.ofList (normalChars path.toList)

/-- The text before the last slash, on characters. -/
def parentChars (path : List Char) : List Char :=
  ((path.reverse.dropWhile (· != '/')).drop 1).reverse

/-- The directory part of a normal form: the text before the last slash, empty if there is none. -/
def parent (path : String) : String :=
  String.ofList (parentChars path.toList)

/-- The normal form of `rest` taken from the directory `dir`; the empty text is the directory
above all files. -/
def under (dir rest : String) : String :=
  if dir.isEmpty then normalize rest else normalize (dir ++ "/" ++ rest)

/-- Whether a normal form starts with two dots, as one that climbs above the start does. -/
def climbs (path : String) : Bool :=
  up.isPrefixOf path.toList

end ImportAtlas.Path
