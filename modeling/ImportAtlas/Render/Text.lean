import ImportAtlas.Analysis.Report
import ImportAtlas.Decimal.Binary
import ImportAtlas.Render.Paint
import ImportAtlas.Text.Split

/-!
# Outcomes as text for readers

## Main definitions

* `Render.graphText`, `Render.cyclesText`, `Render.impactText`, `Render.reportText`: the spans of
  an outcome, with more of it if `verbose`
* `Render.graphBrief`, `Render.cyclesBrief`, `Render.impactBrief`, `Render.reportBrief`: the
  outcome in as little text as possible
-/

namespace ImportAtlas.Render

/-- A number of things in words. -/
def plural (count : Nat) (word : String) : String :=
  toString count ++ " " ++ word ++ (if count = 1 then "" else "s")

/-- The number of ranked files that are shown unless all of them are asked for. -/
def rankingPreview : Nat := 10

/-- The span for the kind of an edge. -/
def kindSpan (kind : EdgeKind) : Span where
  style := match kind with
    | .direct => .plain
    | .dynamic => .coloured .cyan
    | .external => .coloured .purple
    | .unresolved => .coloured .yellow
  text := kind.name

/-- A cycle as a chain that ends where it starts. -/
def cycleChain (cycle : List String) : String :=
  match cycle with
  | [] => ""
  | first :: _ => Text.joinWith " -> " cycle ++ " -> " ++ first

/-- A line that names the file of the largest count, if there is one. -/
def largestLine (label : String) (file : Option String) (count : Nat) : List Span :=
  match file with
  | none => []
  | some file => line [plain (label ++ ": "), ⟨.bold, file⟩, plain (" (" ++ toString count ++ ")")]

/-- The lines of statistics. -/
def statisticsText (verbose : Bool) (s : Statistics) : List Span :=
  plainLine ("Files: " ++ toString s.totalNodes) ++
  plainLine ("Edges: " ++ toString s.totalEdges ++ " (direct " ++ toString s.directEdges ++
    ", dynamic " ++ toString s.dynamicEdges ++ ", external " ++ toString s.externalEdges ++
    ", unresolved " ++ toString s.unresolvedEdges ++ ")") ++
  (if verbose then
    plainLine ("Isolated files: " ++ toString s.isolatedFiles) ++
    largestLine "Most imported" s.maxFanInFile s.maxFanIn ++
    largestLine "Most imports" s.maxFanOutFile s.maxFanOut
  else [])

/-- The lines of a graph: its statistics, and every node with the edges that start at it. -/
def graphText (verbose : Bool) (graph : Graph) : List Span :=
  let outgoing := Grouping.ofPairs (graph.edges.map fun edge => (edge.source, edge))
  line [⟨.boldColoured .blue, "Dependency Graph"⟩] ++ plainLine "" ++
  statisticsText verbose graph.statistics ++ plainLine "" ++
  graph.nodes.flatMap fun node =>
    line [⟨.bold, node⟩] ++
    (outgoing.values node).flatMap fun edge =>
      line [plain ("  -> " ++ edge.target ++ " ("), kindSpan edge.kind, plain ")"]

/-- The lines of cycles. -/
def cyclesText (cycles : List (List String)) : List Span :=
  if cycles.isEmpty then line [⟨.boldColoured .green, "No import cycles found"⟩]
  else
    line [⟨.boldColoured .red, "Found " ++ plural cycles.length "import cycle"⟩] ++
    (cycles.zipIdx 1).flatMap fun (cycle, number) =>
      plainLine ("  " ++ toString number ++ ". [" ++ plural cycle.length "file" ++ "] " ++
        cycleChain cycle)

/-- The lines of an impact: the dependents by their distance. -/
def impactText (verbose : Bool) (impact : Impact) : List Span :=
  line [plain "Impact of ", ⟨.boldColoured .blue, impact.target⟩,
    plain (": " ++ plural impact.size "dependent file")] ++
  if impact.isEmpty then []
  else
    (impact.byDistance.flatMap fun (distance, paths) =>
      line [plain "\n  ",
        ⟨.bold, plural distance "hop" ++ " away (" ++ toString paths.length ++ ")"⟩] ++
      paths.flatMap fun path => plainLine ("    " ++ path)) ++
    (if verbose then
      plainLine ("\nDirect dependents: " ++ toString impact.directDependents.length ++
        ", furthest: " ++ plural impact.maxDistance "hop")
    else [])

/-- The title of a report. -/
def reportTitle (report : Report) : String :=
  if report.repository.isEmpty then "Dependency Report"
  else "Dependency Report: " ++ report.repository

/-- The lines of the external modules of a report. -/
def externalText (modules : Dictionary Nat) : List Span :=
  if modules.isEmpty then []
  else
    line [plain "\n", ⟨.bold, "External modules:"⟩] ++
    modules.entries.flatMap fun (name, count) =>
      plainLine ("  " ++ name ++ " (" ++ plural count "import" ++ ")")

/-- The lines of the unresolved imports of a report. -/
def unresolvedText (edges : List Edge) : List Span :=
  if edges.isEmpty then []
  else
    line [plain "\n",
      ⟨.boldColoured .yellow, "Unresolved imports: " ++ toString edges.length⟩] ++
    edges.flatMap fun edge => plainLine ("  " ++ edge.source ++ ": " ++ edge.target)

/-- The line of a ranked file. -/
def rankingLine (entry : BlastRadius) : List Span :=
  plainLine ("  " ++ Decimal.padLeft ' ' 5 (toString entry.dependents) ++ "  " ++ entry.path ++
    " (direct " ++ toString entry.directDependents ++ ", furthest " ++
    toString entry.maxDistance ++ ")")

/-- The lines of the ranking of a report, the first ones only unless `verbose`. -/
def rankingText (verbose : Bool) (ranking : List BlastRadius) : List Span :=
  let shown := if verbose then ranking.length else rankingPreview
  line [plain "\n", ⟨.bold, "Blast radius:"⟩] ++
  (ranking.take shown).flatMap rankingLine ++
  (if shown < ranking.length then
    plainLine ("  ... and " ++ toString (ranking.length - shown) ++ " more")
  else [])

/-- The lines of a report. -/
def reportText (verbose : Bool) (report : Report) : List Span :=
  line [⟨.boldColoured .blue, reportTitle report⟩] ++ plainLine "" ++
  (if verbose then
    plainLine ("Root: " ++ report.rootPath) ++
    plainLine ("Generated: " ++ report.generatedAt.formatOffset)
  else []) ++
  statisticsText verbose report.statistics ++ plainLine "" ++
  cyclesText report.cycles ++
  externalText report.externalModules ++
  unresolvedText report.unresolvedImports ++
  (match report.blastRadius with
    | none => []
    | some ranking => rankingText verbose ranking)

/-! ## Brief forms -/

/-- The counts of a graph. -/
def graphBrief (graph : Graph) : String :=
  "Files: " ++ toString graph.nodes.length ++ ", Edges: " ++ toString graph.edges.length ++ "\n"

/-- The number of cycles. -/
def cyclesBrief (cycles : List (List String)) : String :=
  "Cycles: " ++ toString cycles.length ++ "\n"

/-- A line for each dependent, with its distance after a tab. -/
def impactBrief (impact : Impact) : String :=
  String.join (impact.nearestFirst.map fun (path, distance) =>
    path ++ "\t" ++ toString distance ++ "\n")

/-- The counts of a report. -/
def reportBrief (report : Report) : String :=
  "Files: " ++ toString report.statistics.totalNodes ++ ", Edges: " ++
    toString report.statistics.totalEdges ++ ", Cycles: " ++ toString report.cycles.length ++
    "\n" ++
    (if 0 < report.statistics.unresolvedEdges then
      "Unresolved imports: " ++ toString report.statistics.unresolvedEdges ++ "\n"
    else "")

end ImportAtlas.Render
