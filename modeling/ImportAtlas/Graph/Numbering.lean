import ImportAtlas.Graph.Basic
import Std.Data.HashMap

/-!
# Numbered graphs

A numbering gives every node of a graph a number, in order, and after them every edge target that
is no node, in the order of first appearance. Edges become pairs of numbers. An edge that starts
at a text without a number is left out, which happens only in graphs that are not well formed.

## Main definitions

* `Numbering`: labels by number, numbers by label, and arrows between numbers
* `Graph.numbering`: the numbering of a graph
* `Graph.positions`: the place of every node
-/

namespace ImportAtlas

/-- An edge between numbers. -/
structure Arrow where
  source : Nat
  target : Nat
  kind : EdgeKind
  deriving DecidableEq, Repr

/-- A graph with numbers for nodes. -/
structure Numbering where
  /-- The label of each number. -/
  labels : Array String
  /-- The number of each label, the last one if a label occurs more than once. -/
  numbers : Std.HashMap String Nat
  /-- The edges, in order. -/
  arrows : Array Arrow

namespace Numbering

/-- The numbering without labels. -/
def empty : Numbering := ⟨#[], ∅, #[]⟩

/-- The numbering with one more label under the next number. -/
def push (numbering : Numbering) (label : String) : Numbering :=
  { numbering with
    labels := numbering.labels.push label
    numbers := numbering.numbers.insert label numbering.labels.size }

/-- The numbering in which a label has a number for certain. -/
def ensure (numbering : Numbering) (label : String) : Numbering :=
  if numbering.numbers.contains label then numbering else numbering.push label

/-- The numbering with one more edge, its target being given a number if it has none. -/
def addEdge (numbering : Numbering) (edge : Edge) : Numbering :=
  match numbering.numbers[edge.source]? with
  | none => numbering
  | some source =>
    let extended := numbering.ensure edge.target
    match extended.numbers[edge.target]? with
    | none => extended
    | some target => { extended with arrows := extended.arrows.push ⟨source, target, edge.kind⟩ }

end Numbering

namespace Graph

/-- The numbering of a graph: its nodes in order, then the other edge targets as they appear. -/
def numbering (graph : Graph) : Numbering :=
  graph.edges.foldl Numbering.addEdge (graph.nodes.foldl Numbering.push .empty)

/-- The place of every node in the list of nodes, the last one if a node is repeated. -/
def positions (graph : Graph) : Std.HashMap String Nat :=
  graph.nodes.zipIdx.foldl (fun places node => places.insert node.1 node.2) ∅

end Graph

end ImportAtlas
