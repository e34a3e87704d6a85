import ImportAtlas.Codec.Graph
import ImportAtlas.Proofs.Codec.Record

/-!
# Documents of graphs and of findings, read back

## Main definitions

* `Edge.shape`, `Graph.shape`, `Statistics.shape`, `Impact.shape`, `BlastRadius.shape`,
  `Report.shape`: the members of the documents, and for which values they may be missing
* `Report.InRange` and those of its parts: the numbers fit into 64 bits

## Main results

* `Report.readsBack`, `Report.tolerates` and those of the other documents
-/

namespace ImportAtlas

open Codec

theorem EdgeKind.readsBack (kind : EdgeKind) : codec.ReadsBack kind :=
  readsBack_choice (by cases kind <;> rfl)

namespace Edge

/-- The document of an edge. -/
def shape : Shape :=
  .record [
    ⟨"source", .leaf, none⟩,
    ⟨"target", .leaf, none⟩,
    ⟨"type", .leaf, some (.text "direct")⟩]

theorem tolerates : codec.Tolerates shape :=
  tolerates_record
    ⟨follows_field "source" (tolerates_leaf _), follows_field "target" (tolerates_leaf _),
      follows_defaulted "type" (tolerates_leaf _) (EdgeKind.readsBack .direct), trivial⟩
    (by decide)

theorem readsBack (e : Edge) : codec.ReadsBack e :=
  readsBack_record (by decide) rfl
    ⟨readsBack_text _, readsBack_text _, EdgeKind.readsBack _, trivial⟩

end Edge

namespace Graph

/-- The document of a graph. -/
def shape : Shape :=
  .record [
    ⟨"nodes", .list .leaf, some (.array [])⟩,
    ⟨"edges", .list Edge.shape, some (.array [])⟩]

theorem tolerates : codec.Tolerates shape :=
  tolerates_record
    ⟨follows_defaulted "nodes" (tolerates_list (tolerates_leaf _)) rfl,
      follows_defaulted "edges" (tolerates_list Edge.tolerates) rfl, trivial⟩
    (by decide)

theorem readsBack (g : Graph) : codec.ReadsBack g :=
  readsBack_record (by decide) rfl
    ⟨readsBack_texts _, readsBack_list fun e _ => e.readsBack, trivial⟩

end Graph

namespace Statistics

/-- The document of statistics. -/
def shape : Shape :=
  .record [
    ⟨"total_nodes", .leaf, none⟩,
    ⟨"total_edges", .leaf, none⟩,
    ⟨"direct_edges", .leaf, none⟩,
    ⟨"dynamic_edges", .leaf, none⟩,
    ⟨"external_edges", .leaf, none⟩,
    ⟨"unresolved_edges", .leaf, none⟩,
    ⟨"isolated_files", .leaf, none⟩,
    ⟨"max_fan_in", .leaf, none⟩,
    ⟨"max_fan_in_file", .leaf, some .null⟩,
    ⟨"max_fan_out", .leaf, none⟩,
    ⟨"max_fan_out_file", .leaf, some .null⟩]

theorem tolerates : codec.Tolerates shape :=
  tolerates_record
    ⟨follows_field "total_nodes" (tolerates_leaf _), follows_field "total_edges" (tolerates_leaf _),
      follows_field "direct_edges" (tolerates_leaf _),
      follows_field "dynamic_edges" (tolerates_leaf _),
      follows_field "external_edges" (tolerates_leaf _),
      follows_field "unresolved_edges" (tolerates_leaf _),
      follows_field "isolated_files" (tolerates_leaf _),
      follows_field "max_fan_in" (tolerates_leaf _),
      follows_nullable "max_fan_in_file" (tolerates_leaf _),
      follows_field "max_fan_out" (tolerates_leaf _),
      follows_nullable "max_fan_out_file" (tolerates_leaf _), trivial⟩
    (by decide)

/-- The counts fit into 64 bits. -/
structure InRange (s : Statistics) : Prop where
  totalNodes : s.totalNodes ≤ Text.maxCount
  totalEdges : s.totalEdges ≤ Text.maxCount
  directEdges : s.directEdges ≤ Text.maxCount
  dynamicEdges : s.dynamicEdges ≤ Text.maxCount
  externalEdges : s.externalEdges ≤ Text.maxCount
  unresolvedEdges : s.unresolvedEdges ≤ Text.maxCount
  isolatedFiles : s.isolatedFiles ≤ Text.maxCount
  maxFanIn : s.maxFanIn ≤ Text.maxCount
  maxFanOut : s.maxFanOut ≤ Text.maxCount

theorem readsBack {s : Statistics} (h : s.InRange) : codec.ReadsBack s :=
  readsBack_record (by decide) rfl
    ⟨readsBack_count h.totalNodes, readsBack_count h.totalEdges, readsBack_count h.directEdges,
      readsBack_count h.dynamicEdges, readsBack_count h.externalEdges,
      readsBack_count h.unresolvedEdges, readsBack_count h.isolatedFiles,
      readsBack_count h.maxFanIn,
      readsBack_optional_text _,
      readsBack_count h.maxFanOut,
      readsBack_optional_text _, trivial⟩

end Statistics

namespace Impact

/-- The document of an impact. -/
def shape : Shape :=
  .record [
    ⟨"target", .leaf, none⟩,
    ⟨"dependents", .dictionary .leaf, none⟩]

theorem tolerates : codec.Tolerates shape :=
  tolerates_record
    ⟨follows_field "target" (tolerates_leaf _),
      follows_field "dependents" (tolerates_dictionary (tolerates_leaf _)), trivial⟩
    (by decide)

/-- The distances fit into 64 bits. -/
def InRange (i : Impact) : Prop := ∀ entry ∈ i.dependents.entries, entry.2 ≤ Text.maxCount

theorem readsBack {i : Impact} (h : i.InRange) : codec.ReadsBack i :=
  readsBack_record (by decide) rfl
    ⟨readsBack_text _, readsBack_dictionary fun entry he => readsBack_count (h entry he), trivial⟩

end Impact

namespace BlastRadius

/-- The document of the size of an impact. -/
def shape : Shape :=
  .record [
    ⟨"path", .leaf, none⟩,
    ⟨"dependents", .leaf, none⟩,
    ⟨"direct_dependents", .leaf, none⟩,
    ⟨"max_distance", .leaf, none⟩]

theorem tolerates : codec.Tolerates shape :=
  tolerates_record
    ⟨follows_field "path" (tolerates_leaf _), follows_field "dependents" (tolerates_leaf _),
      follows_field "direct_dependents" (tolerates_leaf _),
      follows_field "max_distance" (tolerates_leaf _), trivial⟩
    (by decide)

/-- The counts fit into 64 bits. -/
structure InRange (b : BlastRadius) : Prop where
  dependents : b.dependents ≤ Text.maxCount
  directDependents : b.directDependents ≤ Text.maxCount
  maxDistance : b.maxDistance ≤ Text.maxCount

theorem readsBack {b : BlastRadius} (h : b.InRange) : codec.ReadsBack b :=
  readsBack_record (by decide) rfl
    ⟨readsBack_text _, readsBack_count h.dependents, readsBack_count h.directDependents,
      readsBack_count h.maxDistance, trivial⟩

end BlastRadius

namespace Report

/-- The document of a report. -/
def shape : Shape :=
  .record [
    ⟨"repository", .leaf, none⟩,
    ⟨"root_path", .leaf, none⟩,
    ⟨"generated_at", .leaf, none⟩,
    ⟨"graph", Graph.shape, none⟩,
    ⟨"statistics", Statistics.shape, none⟩,
    ⟨"cycles", .list (.list .leaf), none⟩,
    ⟨"unresolved_imports", .list Edge.shape, none⟩,
    ⟨"external_modules", .dictionary .leaf, none⟩,
    ⟨"blast_radius", .list BlastRadius.shape, some .null⟩]

theorem follows_rankingField :
    rankingField.Follows ⟨"blast_radius", .list BlastRadius.shape, some .null⟩ where
  name := rfl
  tolerates := tolerates_optional (tolerates_list BlastRadius.tolerates)
  missing _ hsame := ⟨none, rfl, Option.some.inj hsame ▸ rfl⟩

theorem tolerates : codec.Tolerates shape :=
  tolerates_record
    ⟨follows_field "repository" (tolerates_leaf _), follows_field "root_path" (tolerates_leaf _),
      follows_field "generated_at" (tolerates_leaf _), follows_field "graph" Graph.tolerates,
      follows_field "statistics" Statistics.tolerates,
      follows_field "cycles" (tolerates_list (tolerates_list (tolerates_leaf _))),
      follows_field "unresolved_imports" (tolerates_list Edge.tolerates),
      follows_field "external_modules" (tolerates_dictionary (tolerates_leaf _)),
      follows_rankingField, trivial⟩
    (by decide)

/-- The counts fit into 64 bits, and the point in time has a form that it is read from. -/
structure InRange (r : Report) : Prop where
  generatedAt : Instant.read r.generatedAt.format = .ok r.generatedAt
  statistics : r.statistics.InRange
  externalModules : ∀ entry ∈ r.externalModules.entries, entry.2 ≤ Text.maxCount
  blastRadius : ∀ ranking ∈ r.blastRadius, ∀ b ∈ ranking, b.InRange

/-- A ranking is written only if there is one. -/
theorem readsBack_rankingField {ranking : Option (List BlastRadius)}
    (h : ∀ bs ∈ ranking, ∀ b ∈ bs, b.InRange) : rankingField.ReadsBack ranking := by
  cases ranking with
  | none => rfl
  | some bs =>
    exact readsBack_optional (fun _ => Json.noConfusion) fun bs hbs =>
      readsBack_list fun b hb => BlastRadius.readsBack (h bs hbs b hb)

theorem readsBack {r : Report} (h : r.InRange) : codec.ReadsBack r :=
  readsBack_record (by decide) rfl
    ⟨readsBack_text _, readsBack_text _, readsBack_instant h.generatedAt, r.graph.readsBack,
      Statistics.readsBack h.statistics,
      readsBack_list fun _ _ => readsBack_texts _,
      readsBack_list fun e _ => e.readsBack,
      readsBack_dictionary fun entry he => readsBack_count (h.externalModules entry he),
      readsBack_rankingField h.blastRadius, trivial⟩

end Report

end ImportAtlas
