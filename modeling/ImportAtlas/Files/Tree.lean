import ImportAtlas.Dictionary
import ImportAtlas.Error
import ImportAtlas.Files.Route

/-!
# File trees

A file tree holds directories and files below a top directory, one of the directories being the
one that routes start from. A route is walked component by component: a component after a file or
after a missing name is a fault. Reading and writing say of each fault what it is.

## Main definitions

* `FileNode`: what a name stands for
* `FileTree`: the nodes below the top directory
* `FileTree.locate`: where a route leads
* `FileTree.isFile`, `FileTree.isDirectory`, `FileTree.exists?`: what is there
* `FileTree.read`, `FileTree.write`, `FileTree.createDirectories`: reading and changing
-/

namespace ImportAtlas

/-- What a name in a directory stands for. -/
inductive FileNode where
  | directory
  /-- A file with a text in it. -/
  | text (content : String)
  /-- A file whose bytes are no text. -/
  | bytes
  deriving DecidableEq, Repr

/-- Directories and files below a top directory. -/
structure FileTree where
  /-- The nodes by their places, the names from the top being joined by slashes. -/
  nodes : Dictionary FileNode := .empty
  /-- The names from the top to the directory that routes start from. -/
  workingDirectory : List String := []
  deriving DecidableEq

namespace FileTree

/-- The place of names from the top. -/
def placeOf (names : List String) : String := Text.joinWith "/" names

/-- The node at names from the top; the top itself is a directory. -/
def node? (tree : FileTree) (names : List String) : Option FileNode :=
  match names with
  | [] => some .directory
  | names => tree.nodes.get? (placeOf names)

/-- Where a route leads: the names from the top, and the node there if there is one. The directory
of the names exists in either case. -/
structure Location where
  names : List String
  node : Option FileNode

/-- The largest number of bytes in a name. -/
def maxNameBytes : Nat := 255

/-- The largest number of bytes in a route. -/
def maxRouteBytes : Nat := 4095

/-- One component further from a location. -/
def step (tree : FileTree) (location : Location) (component : String) :
    Except FileFault Location :=
  match location.node with
  | none => .error .notFound
  | some (.text _) | some .bytes => .error .notDirectory
  | some .directory =>
    if component = "." then .ok location
    else if component = ".." then
      let names := location.names.dropLast
      .ok ⟨names, some .directory⟩
    else if maxNameBytes < component.utf8ByteSize then .error .nameTooLong
    else
      let names := location.names ++ [component]
      .ok ⟨names, tree.node? names⟩

/-- Where components lead from the start of a route. -/
def walk (tree : FileTree) (route : String) (components : List String) :
    Except FileFault Location :=
  if route.isEmpty then .error .notFound
  else if route.toList.contains '\x00' then .error .badName
  else if maxRouteBytes < route.utf8ByteSize then .error .nameTooLong
  else
    let start : Location :=
      if Route.isRooted route then ⟨[], some .directory⟩
      else ⟨tree.workingDirectory, some .directory⟩
    components.foldlM tree.step start

/-- Where a route leads, whether or not it ends with a slash. -/
def locate (tree : FileTree) (route : String) : Except FileFault Location :=
  tree.walk route (Route.components route)

/-- The node that a route leads to. -/
def find (tree : FileTree) (route : String) : Except FileFault FileNode := do
  match (← tree.locate route).node with
  | none => .error .notFound
  | some .directory => return .directory
  | some file => if Route.endsWithSlash route then .error .notDirectory else return file

/-- Whether a route leads to a file. -/
def isFile (tree : FileTree) (route : String) : Bool :=
  match tree.find route with
  | .ok (.text _) | .ok .bytes => true
  | _ => false

/-- Whether a route leads to a directory. -/
def isDirectory (tree : FileTree) (route : String) : Bool :=
  match tree.find route with
  | .ok .directory => true
  | _ => false

/-- Whether a route leads to anything. -/
def exists? (tree : FileTree) (route : String) : Bool :=
  (tree.find route).toOption.isSome

/-- The text in the file that a route leads to. -/
def read (tree : FileTree) (route : String) : Except FileFault String := do
  match ← tree.find route with
  | .directory => .error .isDirectory
  | .bytes => .error .notText
  | .text content => return content

/-- The tree with a node at names from the top. -/
def put (tree : FileTree) (names : List String) (node : FileNode) : FileTree :=
  { tree with nodes := tree.nodes.insert (placeOf names) node }

/-- The tree with a text in the file that a route leads to, which is made if it is missing. -/
def write (tree : FileTree) (route content : String) : Except FileFault FileTree := do
  if Route.endsWithSlash route then
    -- The name before the slash is not looked up: only a directory may have it.
    let _ ← tree.walk route ((Route.components route).dropLast ++ ["."])
    .error .isDirectory
  else
    let location ← tree.locate route
    if location.node == some .directory then .error .isDirectory
    else return tree.put location.names (.text content)

/-- The tree with one more directory, whose own directory exists. -/
def createDirectory (tree : FileTree) (route : String) : Except FileFault FileTree := do
  let location ← tree.locate route
  match location.node with
  | some _ => .error .alreadyExists
  | none => return tree.put location.names .directory

/-- The tree with the directory of the first of some routes; each of the others is the route of a
directory around the one before, and is made if it is missing. -/
def createNested (tree : FileTree) : List String → Except FileFault FileTree
  | [] => .ok tree
  | route :: outer =>
    match tree.createDirectory route with
    | .ok tree => .ok tree
    | .error .notFound => do
      let tree ← tree.createNested outer
      if tree.isDirectory route then return tree else tree.createDirectory route
    | .error fault => if tree.isDirectory route then .ok tree else .error fault

/-- The tree with the directory of a route and all directories around it. -/
def createDirectories (tree : FileTree) (route : String) : Except FileFault FileTree :=
  tree.createNested (Route.ancestors route)

/-- The places that a route goes through, whatever is there: for each of its components the names
from the top. -/
def passed (tree : FileTree) (route : String) : List (List String) :=
  let step (trail : List (List String)) (component : String) : List (List String) :=
    let names := trail.headD []
    (if component = "." then names
      else if component = ".." then names.dropLast
      else names ++ [component]) :: trail
  let start := if Route.isRooted route then [] else tree.workingDirectory
  ((Route.components route).foldl step [start]).reverse

/-- The texts of files by their places, as far as they are not the same in an earlier tree. -/
def changesSince (tree earlier : FileTree) : List (String × String) :=
  tree.nodes.entries.filterMap fun (place, node) =>
    match node with
    | .text content =>
      if earlier.nodes.get? place = some node then none else some (place, content)
    | _ => none

end FileTree

end ImportAtlas
