import ImportAtlas.Analysis.Report
import ImportAtlas.Codec.Record

/-!
# Documents of graphs and of what is found out about them

## Main definitions

* `EdgeKind.codec`, `Edge.codec`, `Graph.codec`: graphs
* `Statistics.codec`, `Impact.codec`, `BlastRadius.codec`: findings
* `Report.codec`: all findings together
-/

namespace ImportAtlas

open Codec

/-- The documents of edge kinds. -/
def EdgeKind.codec : Codec EdgeKind := choice EdgeKind.all EdgeKind.name

/-- The documents of edges. -/
def Edge.codec : Codec Edge :=
  record "DependencyEdge"
    (.cons (field "source" text) <|
      .cons (field "target" text) <|
      .cons (defaulted "type" EdgeKind.codec .direct) .nil)
    (fun (source, target, kind, _) => { source, target, kind })
    (fun e => (e.source, e.target, e.kind, ()))

/-- The documents of graphs. -/
def Graph.codec : Codec Graph :=
  record "DependencyGraph"
    (.cons (defaulted "nodes" text.list []) <|
      .cons (defaulted "edges" Edge.codec.list []) .nil)
    (fun (nodes, edges, _) => { nodes, edges })
    (fun g => (g.nodes, g.edges, ()))

/-- The documents of statistics. -/
def Statistics.codec : Codec Statistics :=
  record "GraphStatistics"
    (.cons (field "total_nodes" count) <|
      .cons (field "total_edges" count) <|
      .cons (field "direct_edges" count) <|
      .cons (field "dynamic_edges" count) <|
      .cons (field "external_edges" count) <|
      .cons (field "unresolved_edges" count) <|
      .cons (field "isolated_files" count) <|
      .cons (field "max_fan_in" count) <|
      .cons (nullable "max_fan_in_file" text) <|
      .cons (field "max_fan_out" count) <|
      .cons (nullable "max_fan_out_file" text) .nil)
    (fun (totalNodes, totalEdges, directEdges, dynamicEdges, externalEdges, unresolvedEdges,
        isolatedFiles, maxFanIn, maxFanInFile, maxFanOut, maxFanOutFile, _) =>
      { totalNodes, totalEdges, directEdges, dynamicEdges, externalEdges, unresolvedEdges,
        isolatedFiles, maxFanIn, maxFanInFile, maxFanOut, maxFanOutFile })
    (fun s => (s.totalNodes, s.totalEdges, s.directEdges, s.dynamicEdges, s.externalEdges,
      s.unresolvedEdges, s.isolatedFiles, s.maxFanIn, s.maxFanInFile, s.maxFanOut,
      s.maxFanOutFile, ()))

/-- The documents of impacts. -/
def Impact.codec : Codec Impact :=
  record "Impact"
    (.cons (field "target" text) <|
      .cons (field "dependents" count.dictionary) .nil)
    (fun (target, dependents, _) => { target, dependents })
    (fun i => (i.target, i.dependents, ()))

/-- The documents of sizes of impacts. -/
def BlastRadius.codec : Codec BlastRadius :=
  record "BlastRadius"
    (.cons (field "path" text) <|
      .cons (field "dependents" count) <|
      .cons (field "direct_dependents" count) <|
      .cons (field "max_distance" count) .nil)
    (fun (path, dependents, directDependents, maxDistance, _) =>
      { path, dependents, directDependents, maxDistance })
    (fun b => (b.path, b.dependents, b.directDependents, b.maxDistance, ()))

/-- The field for a ranking, which is written only if there is one. -/
def Report.rankingField : RecordField (Option (List BlastRadius)) where
  name := "blast_radius"
  codec := BlastRadius.codec.list.optional
  absence := .always none
  isWritten := Option.isSome

/-- The documents of reports. -/
def Report.codec : Codec Report :=
  record "AnalysisReport"
    (.cons (field "repository" text) <|
      .cons (field "root_path" text) <|
      .cons (field "generated_at" instant) <|
      .cons (field "graph" Graph.codec) <|
      .cons (field "statistics" Statistics.codec) <|
      .cons (field "cycles" text.list.list) <|
      .cons (field "unresolved_imports" Edge.codec.list) <|
      .cons (field "external_modules" count.dictionary) <|
      .cons Report.rankingField .nil)
    (fun (repository, rootPath, generatedAt, graph, statistics, cycles, unresolvedImports,
        externalModules, blastRadius, _) =>
      { repository, rootPath, generatedAt, graph, statistics, cycles, unresolvedImports,
        externalModules, blastRadius })
    (fun r => (r.repository, r.rootPath, r.generatedAt, r.graph, r.statistics, r.cycles,
      r.unresolvedImports, r.externalModules, r.blastRadius, ()))

end ImportAtlas
