import ImportAtlas.Graph.Basic
import ImportAtlas.Indexed

/-!
# Graph statistics

The fan-in of a file is the number of distinct files with an internal edge to it, its fan-out the
number of distinct files it has such an edge to. Of several files with the largest fan-in or
fan-out the first one listed is named, and none if there are no internal edges.

## Main definitions

* `Graph.FanTable`: the internal neighbours of every file
* `Statistics`: the counts of a graph
* `Graph.statistics`: the statistics of a graph
-/

namespace ImportAtlas

/-- The counts of a graph. -/
structure Statistics where
  totalNodes : Nat
  totalEdges : Nat
  directEdges : Nat
  dynamicEdges : Nat
  externalEdges : Nat
  unresolvedEdges : Nat
  /-- The number of files without internal edges. -/
  isolatedFiles : Nat
  maxFanIn : Nat
  maxFanInFile : Option String
  maxFanOut : Nat
  maxFanOutFile : Option String
  deriving DecidableEq, Repr

namespace Graph

/-- The internal neighbours of every file, repetitions included. -/
structure FanTable where
  importers : Grouping String
  imported : Grouping String

/-- The internal neighbours of every file of a graph. -/
def fanTable (graph : Graph) : FanTable where
  importers := .ofPairs (graph.internalEdges.map fun edge => (edge.target, edge.source))
  imported := .ofPairs (graph.internalEdges.map fun edge => (edge.source, edge.target))

/-- The number of distinct files with an internal edge to a file. -/
def FanTable.fanIn (table : FanTable) (path : String) : Nat :=
  (table.importers.values path).eraseDups.length

/-- The number of distinct files that a file has an internal edge to. -/
def FanTable.fanOut (table : FanTable) (path : String) : Nat :=
  (table.imported.values path).eraseDups.length

/-- The largest measure of a path in a list with the first path that has it, unless it is zero. -/
def largest (measure : String → Nat) (paths : List String) : Nat × Option String :=
  paths.foldl
    (fun best path => if best.1 < measure path then (measure path, some path) else best) (0, none)

/-- The statistics of a graph. -/
def statistics (graph : Graph) : Statistics :=
  let fans := graph.fanTable
  let mostImported := largest fans.fanIn graph.nodes
  let mostImports := largest fans.fanOut graph.nodes
  { totalNodes := graph.nodes.length
    totalEdges := graph.edges.length
    directEdges := graph.countOfKind .direct
    dynamicEdges := graph.countOfKind .dynamic
    externalEdges := graph.countOfKind .external
    unresolvedEdges := graph.countOfKind .unresolved
    isolatedFiles := graph.nodes.countP fun path => fans.fanIn path == 0 && fans.fanOut path == 0
    maxFanIn := mostImported.1
    maxFanInFile := mostImported.2
    maxFanOut := mostImports.1
    maxFanOutFile := mostImports.2 }

end Graph

end ImportAtlas
