import ImportAtlas.Graph.Statistics
import ImportAtlas.Impact
import ImportAtlas.Time.Instant

/-!
# Analysis reports

A report gathers what was found out about a repository. The files may be ranked in it by the
number of files that depend on them, the most important ones first.

## Main definitions

* `Report`: the findings
* `Report.create`: the report on a graph and its cycles
* `Report.withBlastRadius`: the report with a ranking of the files
-/

namespace ImportAtlas

/-- What was found out about a repository. -/
structure Report where
  /-- The name of the repository. -/
  repository : String
  rootPath : String
  generatedAt : Instant
  graph : Graph
  statistics : Statistics
  /-- The import cycles, each as the paths of its files. -/
  cycles : List (List String)
  /-- The edges whose imports mean neither a file nor a known module. -/
  unresolvedImports : List Edge
  /-- The number of edges to each third-party module. -/
  externalModules : Dictionary Nat
  /-- The files by the number of their dependents, if a ranking was asked for. -/
  blastRadius : Option (List BlastRadius) := none
  deriving DecidableEq

namespace Report

/-- The number of times that each text occurs in a list. -/
def tally (texts : List String) : Dictionary Nat :=
  texts.foldl (fun counts text => counts.insert text ((counts.get? text).getD 0 + 1)) .empty

/-- The report on a graph and its cycles. -/
def create (repository rootPath : String) (now : Instant) (graph : Graph)
    (cycles : List (List String)) : Report where
  repository := repository
  rootPath := rootPath
  generatedAt := now
  graph := graph
  statistics := graph.statistics
  cycles := cycles
  unresolvedImports := graph.edgesOfKind .unresolved
  externalModules := tally ((graph.edgesOfKind .external).map (·.target))

/-- Whether there are import cycles. -/
def hasCycles (report : Report) : Bool := !report.cycles.isEmpty

/-- Whether one file is ranked no lower than another: it has more dependents, or as many and a path
that comes no later. -/
def ranksBefore (a b : BlastRadius) : Bool :=
  b.dependents < a.dependents || (a.dependents == b.dependents && a.path ≤ b.path)

/-- The sizes of impacts, ranked. -/
def rank (impacts : List Impact) : List BlastRadius :=
  (impacts.map Impact.blastRadius).mergeSort ranksBefore

/-- The report with a ranking of the files. -/
def withBlastRadius (report : Report) (impacts : List Impact) : Report :=
  { report with blastRadius := some (rank impacts) }

end Report

end ImportAtlas
