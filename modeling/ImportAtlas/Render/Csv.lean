import ImportAtlas.Analysis.Report
import ImportAtlas.Text.Split
import Std.Data.HashMap
import Std.Data.HashSet

/-!
# Outcomes as comma-separated values

A table is written with one line for each row. A field that holds a comma, a quote or an end of
line stands between quotes, and a quote in it is written twice. All rows of a table must have the
same number of fields.

## Main definitions

* `Render.csvField`, `Render.csvRow`: fields and rows
* `Render.RaggedRow`: why a table is refused
* `Render.csv`: tables
* `Render.Tallies`: the edges of a graph, counted by file
* `Render.graphTable`, `Render.cyclesTable`, `Render.impactTable`, `Render.reportTable`: the rows
  of an outcome, the first being the heads of the columns
-/

namespace ImportAtlas.Render

/-- Whether a field with this character has to stand between quotes. -/
def needsQuotes (c : Char) : Bool := c == ',' || c == '"' || c == '\r' || c == '\n'

/-- The characters of a field. -/
def csvField (cs : List Char) : List Char :=
  if cs.any needsQuotes then
    '"' :: cs.flatMap (fun c => if c = '"' then ['"', '"'] else [c]) ++ ['"']
  else cs

/-- The characters of a row. -/
def csvRow (fields : List String) : List Char :=
  Text.join [','] (fields.map fun field => csvField field.toList) ++ ['\n']

/-- A row that has not as many fields as the first one. -/
structure RaggedRow where
  expected : Nat
  found : Nat
  deriving DecidableEq, Repr

/-- A ragged row in words. -/
def RaggedRow.message (row : RaggedRow) : String :=
  "CSV error: found record with " ++ toString row.found ++
    " fields, but the previous record has " ++ toString row.expected ++ " fields"

/-- The text of a table, all rows of which must have as many fields as the first one. -/
def csv (rows : List (List String)) : Except RaggedRow String :=
  let width := (rows.headD []).length
  match rows.find? (·.length != width) with
  | some row => .error ⟨width, row.length⟩
  | none => .ok (String.ofList (rows.flatMap csvRow))

/-- A row for each edge. -/
def graphTable (graph : Graph) : List (List String) :=
  ["source", "target", "type"] ::
    graph.edges.map fun edge => [edge.source, edge.target, edge.kind.name]

/-- A row for each file of each cycle. -/
def cyclesTable (cycles : List (List String)) : List (List String) :=
  ["cycle", "position", "path"] ::
    (cycles.zipIdx 1).flatMap fun (cycle, number) =>
      cycle.zipIdx.map fun (path, position) => [toString number, toString position, path]

/-- A row for each dependent, nearest first. -/
def impactTable (impact : Impact) : List (List String) :=
  ["path", "hops"] :: impact.nearestFirst.map fun (path, distance) => [path, toString distance]

/-- The number of dependents that a ranking gives for each file, the last entry counting. -/
def rankedDependents (ranking : Option (List BlastRadius)) : Dictionary Nat :=
  .ofEntries ((ranking.getD []).map fun entry => (entry.path, entry.dependents))

/-- What the edges of a graph say of a file. -/
structure Tally where
  /-- The files that it has an internal edge to. -/
  imports : Std.HashSet String := ∅
  /-- The files that have an internal edge to it. -/
  importedBy : Std.HashSet String := ∅
  external : Nat := 0
  unresolved : Nat := 0

/-- The tallies of files. -/
structure Tallies where
  table : Std.HashMap String Tally

namespace Tallies

/-- The tally of a file, an empty one if it is missing. -/
def of (tallies : Tallies) (path : String) : Tally :=
  tallies.table.getD path {}

/-- Changes the tally of a file. -/
def modify (tallies : Tallies) (path : String) (change : Tally → Tally) : Tallies :=
  ⟨tallies.table.insert path (change (tallies.of path))⟩

/-- Enters an edge: an internal one with both of its files, any other one with its source. -/
def enter (tallies : Tallies) (edge : Edge) : Tallies :=
  match edge.kind with
  | .direct | .dynamic =>
    let imported := tallies.modify edge.source fun tally =>
      { tally with imports := tally.imports.insert edge.target }
    imported.modify edge.target fun tally =>
      { tally with importedBy := tally.importedBy.insert edge.source }
  | .external =>
    tallies.modify edge.source fun tally => { tally with external := tally.external + 1 }
  | .unresolved =>
    tallies.modify edge.source fun tally => { tally with unresolved := tally.unresolved + 1 }

/-- The tallies of edges, entered one after the other. -/
def ofEdges (edges : List Edge) : Tallies :=
  edges.foldl enter ⟨∅⟩

end Tallies

/-- A row for each file, with the counts of its edges and what the report says of it. -/
def reportTable (report : Report) : List (List String) :=
  let tallies := Tallies.ofEdges report.graph.edges
  let cyclic := Std.HashSet.ofList report.cycles.flatten
  let dependents := rankedDependents report.blastRadius
  ["path", "imports", "imported_by", "external", "unresolved", "in_cycle", "dependents"] ::
    report.graph.nodes.map fun node =>
      let tally := tallies.of node
      [node, toString tally.imports.size, toString tally.importedBy.size,
        toString tally.external, toString tally.unresolved,
        if cyclic.contains node then "true" else "false",
        match dependents.get? node with
        | none => ""
        | some count => toString count]

end ImportAtlas.Render
