import ImportAtlas.Text.Split

/-!
# Routes through directories

The text of a file path is a route: components between slashes, taken from the top directory if the
text starts with a slash and from the working directory otherwise. Empty components count for
nothing, and so does `.` unless the route starts with it.

## Main definitions

* `Route.components`: the components of a route, as they are walked
* `Route.stages`: the texts of a route up to the end of each of its components
* `Route.enclosing?`: the route to the directory of what a route names
-/

namespace ImportAtlas.Route

open Text (split)

/-- Whether a route starts at the top directory. -/
def isRooted (route : String) : Bool := route.toList.head? == some '/'

/-- Whether a route ends with a slash, so that only a directory can be at its end. -/
def endsWithSlash (route : String) : Bool := route.toList.getLast? == some '/'

/-- The route that goes on from a directory. -/
def join (dir rest : String) : String :=
  if endsWithSlash dir || dir.isEmpty then dir ++ rest else dir ++ "/" ++ rest

/-- The components of a route, as they are walked. -/
def components (route : String) : List String :=
  ((split (· == '/') route.toList).filter (· != [])).map String.ofList

/-- The texts up to the end of each component, the shortest first, for a text that goes on with
pieces between slashes after the characters `sofar`. -/
def stagesFrom (sofar : List Char) : List (List Char) → List (List Char)
  | [] => []
  | piece :: pieces =>
    let text := sofar ++ piece
    let later := stagesFrom (text ++ ['/']) pieces
    if piece = [] ∨ (piece = ['.'] ∧ sofar ≠ []) then later else text :: later

/-- The texts of a route up to the end of each of its components, the shortest first. The top
directory is the first of a route that starts there. -/
def stages (route : String) : List String :=
  let later := (stagesFrom [] (split (· == '/') route.toList)).map String.ofList
  if isRooted route then "/" :: later else later

/-- The route to the directory of what a route names: the empty text for the working directory,
nothing for the top directory and the empty route. -/
def enclosing? (route : String) : Option String :=
  match (stages route).reverse with
  | [] => none
  | [only] => if only == "/" then none else some ""
  | _ :: outer :: _ => some outer

/-- The routes that a route goes through, the longest first, itself included and the top directory
left out. -/
def ancestors (route : String) : List String :=
  (stages route).reverse.filter (· != "/")

end ImportAtlas.Route
