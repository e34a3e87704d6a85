import ImportAtlas.Text.Blank

/-!
# Dependency graphs

A dependency graph has one node for each file and one edge for each import relation. Edges to
files of the repository are `direct`, or `dynamic` if the import happens at run time. The other
edges keep the text of the import as their target: `external` for a known third-party module,
`unresolved` for anything else.

## Main definitions

* `EdgeKind`: the four kinds of edges, with their names
* `Edge`, `Graph`: edges and graphs
* `Graph.addNode`, `Graph.addEdge`: growing a graph without repetitions
* `Addition`, `Graph.add`: growing a graph by either, and what is answered
* `Graph.edgesOfKind`, `Graph.directSubgraph`: a part of a graph
-/

namespace ImportAtlas

/-- The kind of an import relation. -/
inductive EdgeKind where
  /-- An import of another file. -/
  | direct
  /-- An import of another file that happens at run time. -/
  | dynamic
  /-- An import of a known third-party module. -/
  | external
  /-- An import of anything else. -/
  | unresolved
  deriving DecidableEq, Repr, Hashable

namespace EdgeKind

/-- All kinds, in their order of listing. -/
def all : List EdgeKind := [.direct, .dynamic, .external, .unresolved]

/-- The name of a kind. -/
def name : EdgeKind → String
  | .direct => "direct"
  | .dynamic => "dynamic"
  | .external => "external"
  | .unresolved => "unresolved"

/-- The kind of a name in any letter case. -/
def ofWord? (word : String) : Option EdgeKind :=
  all.find? fun kind => kind.name == Text.fold word

/-- Whether edges of this kind lead to a file of the repository. -/
def isInternal : EdgeKind → Bool
  | .direct | .dynamic => true
  | .external | .unresolved => false

end EdgeKind

/-- An import relation. -/
structure Edge where
  /-- The importing file. -/
  source : String
  /-- The imported file, or the text of the import. -/
  target : String
  kind : EdgeKind := .direct
  deriving DecidableEq, Repr, Hashable

/-- What is added to a graph. -/
inductive Addition where
  | node (path : String)
  | edge (edge : Edge)
  deriving DecidableEq, Repr

/-- A dependency graph. -/
@[ext] structure Graph where
  /-- The paths of the files, in repository order. -/
  nodes : List String := []
  /-- The import relations, in file order and then import order. -/
  edges : List Edge := []
  deriving DecidableEq, Repr

namespace Graph

variable (graph : Graph)

/-- The graph without nodes. -/
def empty : Graph := {}

/-- Whether a path is a node. -/
def hasNode (path : String) : Bool := graph.nodes.contains path

/-- The graph with a node for the path. -/
def addNode (path : String) : Graph :=
  if graph.hasNode path then graph else { graph with nodes := graph.nodes ++ [path] }

/-- Whether the graph has this very edge. -/
def hasEdge (edge : Edge) : Bool := graph.edges.contains edge

/-- The graph with the edge. Edges of the same ends and different kinds are different. -/
def addEdge (edge : Edge) : Graph :=
  if graph.hasEdge edge then graph else { graph with edges := graph.edges ++ [edge] }

/-- The graph after an addition, and whether the graph did not have it before. -/
def add : Addition → Graph × Bool
  | .node path => (graph.addNode path, !graph.hasNode path)
  | .edge edge => (graph.addEdge edge, !graph.hasEdge edge)

/-- The edges of one kind, in graph order. -/
def edgesOfKind (kind : EdgeKind) : List Edge :=
  graph.edges.filter (·.kind == kind)

/-- The number of edges of one kind. -/
def countOfKind (kind : EdgeKind) : Nat :=
  graph.edges.countP (·.kind == kind)

/-- The edges that lead to files, in graph order. -/
def internalEdges : List Edge :=
  graph.edges.filter (·.kind.isInternal)

/-- The graph with the same nodes and its direct edges only. -/
def directSubgraph : Graph :=
  { graph with edges := graph.edgesOfKind .direct }

end Graph

end ImportAtlas
