import ImportAtlas.Error
import ImportAtlas.Graph.Basic
import Std.Data.HashSet

/-!
# Checking graphs

A graph is well formed if its nodes are distinct, every edge starts at a node, and every edge of
an internal kind ends at one. Checking reports the first repeated node, or else the first edge
that breaks a rule.

## Main definitions

* `Graph.Defect`: what can be wrong with a graph
* `Graph.check`: the check
* `Graph.isWellFormed`: whether the check succeeds
-/

namespace ImportAtlas.Graph

/-- What can be wrong with a graph. -/
inductive Defect where
  /-- A node occurs twice. -/
  | duplicateNode (path : String)
  /-- An edge starts at no node. -/
  | strangeSource (edge : Edge)
  /-- An internal edge ends at no node. -/
  | danglingTarget (edge : Edge)
  deriving DecidableEq, Repr

/-- A defect as an error. A repeated node is reported as an edge from the node to itself. -/
def Defect.toError : Defect → Error
  | duplicateNode path => .malformedGraph path path "duplicates an existing node"
  | strangeSource edge => .malformedGraph edge.source edge.target "has a source that is not a node"
  | danglingTarget edge =>
    .malformedGraph edge.source edge.target
      ("is typed '" ++ edge.kind.name ++ "' but its target is not a node")

/-- Adds nodes to those seen, none of which may occur twice. -/
def collectNodes (seen : Std.HashSet String) : List String → Except Defect (Std.HashSet String)
  | [] => .ok seen
  | path :: paths =>
    if seen.contains path then .error (.duplicateNode path)
    else collectNodes (seen.insert path) paths

/-- Checks an edge between the given nodes. -/
def checkEdge (nodes : Std.HashSet String) (edge : Edge) : Except Defect Unit :=
  if !nodes.contains edge.source then .error (.strangeSource edge)
  else if edge.kind.isInternal && !nodes.contains edge.target then .error (.danglingTarget edge)
  else .ok ()

/-- Checks the nodes of a graph, then its edges in order. -/
def check (graph : Graph) : Except Defect Unit := do
  let nodes ← collectNodes ∅ graph.nodes
  graph.edges.forM (checkEdge nodes)

/-- Whether a graph is well formed. -/
def isWellFormed (graph : Graph) : Bool :=
  graph.check.toOption.isSome

end ImportAtlas.Graph
