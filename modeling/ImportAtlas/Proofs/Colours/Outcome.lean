import ImportAtlas.Proofs.Colours.Sequences
import ImportAtlas.Proofs.Graph.Fans
import ImportAtlas.Render.Renderer

/-!
# Colours do not change what is said

The texts for readers are put together from spans, and what is written between the strings of an outcome
is digits, words and punctuation. So if no string of an outcome has an escape character in it, the only
control sequences of its coloured text are those of the colours, and without them it is the text
without colours, in the long and the brief form alike.

## Main definitions

* `Graph.texts`, `Impact.texts`, `Statistics.texts`, `Report.texts`: the strings of an outcome
* `Renderer.KeepsText`: a rendering whose text colours do not change

## Main results

* `spansFree_graphText`, `spansFree_cyclesText`, `spansFree_impactText`, `spansFree_reportText`: the
  long forms
* `Renderer.colours_keepText`: what is left of the coloured texts without the colours
-/

namespace ImportAtlas

open Render

/-! ## The strings of an outcome -/

/-- The strings of an edge. -/
def Edge.texts (edge : Edge) : List String := [edge.source, edge.target]

/-- The strings of a graph. -/
def Graph.texts (graph : Graph) : List String := graph.nodes ++ graph.edges.flatMap Edge.texts

/-- The strings of statistics. -/
def Statistics.texts (statistics : Statistics) : List String :=
  statistics.maxFanInFile.toList ++ statistics.maxFanOutFile.toList

/-- The strings of an impact. -/
def Impact.texts (impact : Impact) : List String := impact.target :: impact.dependents.keys

/-- The strings of a report. -/
def Report.texts (report : Report) : List String :=
  [report.repository, report.rootPath] ++ report.graph.texts ++ report.statistics.texts ++
    report.cycles.flatten ++ report.unresolvedImports.flatMap Edge.texts ++
    report.externalModules.keys ++ (report.blastRadius.getD []).map (·.path)

/-- The files named in the statistics of a graph are files of the graph. -/
theorem Graph.mem_nodes_of_mem_texts_statistics {graph : Graph} {text : String}
    (h : text ∈ graph.statistics.texts) : text ∈ graph.nodes := by
  have hlargest : ∀ measure : String → Nat, (largest measure graph.nodes).2 = some text →
      text ∈ graph.nodes := by
    intro measure hsome
    rcases largest_cases measure graph.nodes with ⟨hnone, -⟩ | ⟨path, hpath, -, -, hfind⟩
    · rw [hnone] at hsome
      cases hsome
    · rw [hpath] at hsome
      obtain rfl := Option.some.inj hsome
      exact List.mem_of_find?_eq_some hfind
  rcases List.mem_append.mp h with hin | hout
  · exact hlargest _ (Option.mem_toList.mp hin)
  · exact hlargest _ (Option.mem_toList.mp hout)

namespace Render

/-! ## Pieces of text -/

theorem escapeFree_plural {word : String} (h : EscapeFree word) (count : Nat) :
    EscapeFree (plural count word) := by
  unfold plural
  split <;> simp +decide [h]

theorem escapeFree_padLeft {fill : Char} (hfill : escape ≠ fill) {text : String}
    (h : EscapeFree text) (width : Nat) : EscapeFree (Decimal.padLeft fill width text) := by
  unfold EscapeFree Decimal.padLeft
  rw [String.toList_ofList, List.mem_append, not_or]
  exact ⟨fun hmem => hfill (List.eq_of_mem_replicate hmem), h⟩

theorem escapeFree_natural (n : Nat) : EscapeFree (Text.natural n) :=
  escapeFree_repr n

theorem escapeFree_formatOffset (instant : Instant) : EscapeFree instant.formatOffset := by
  have hpadded : ∀ width n, EscapeFree (Decimal.padLeft '0' width (Text.natural n)) :=
    fun width n => escapeFree_padLeft (by decide) (escapeFree_natural n) width
  have hyear : EscapeFree (Instant.formatYear instant.date.year) := by
    unfold Instant.formatYear
    dsimp only
    split
    · simp +decide [hpadded]
    · split <;> simp +decide [hpadded]
  have hfraction : EscapeFree (Instant.formatFraction instant.nanosecond) := by
    unfold Instant.formatFraction
    split
    · decide
    · split
      · simp +decide [hpadded]
      · split <;> simp +decide [hpadded]
  unfold Instant.formatOffset Instant.formatWith Instant.twoDigits
  simp +decide [hpadded, hyear, hfraction]

theorem escapeFree_edges_iff {edges : List Edge} :
    (∀ text ∈ edges.flatMap Edge.texts, EscapeFree text) ↔
      ∀ edge ∈ edges, EscapeFree edge.source ∧ EscapeFree edge.target := by
  rw [List.forall_mem_flatMap]
  simp [Edge.texts]

theorem escapeFree_cycleChain {cycle : List String} (h : ∀ path ∈ cycle, EscapeFree path) :
    EscapeFree (cycleChain cycle) := by
  unfold cycleChain
  split
  · decide
  · next first rest =>
    -- The chain ends where it began, so its first file is written twice.
    have hjoin : EscapeFree (Text.joinWith " -> " (first :: rest)) := by
      unfold EscapeFree Text.joinWith
      rw [String.toList_ofList]
      intro hmem
      rcases Text.mem_of_mem_join hmem with hbetween | ⟨piece, hpiece, hescape⟩
      · exact absurd hbetween (by decide)
      · obtain ⟨path, hpath, rfl⟩ := List.mem_map.mp hpiece
        exact h path hpath hescape
    have hfirst : EscapeFree first := h first List.mem_cons_self
    simp +decide [hjoin, hfirst]

/-! ## Long forms -/

theorem spansFree_statisticsText {statistics : Statistics}
    (h : ∀ text ∈ statistics.texts, EscapeFree text) (verbose : Bool) :
    SpansFree (statisticsText verbose statistics) := by
  have hlargest : ∀ (label : String) (file : Option String) (count : Nat), EscapeFree label →
      (∀ path ∈ file.toList, EscapeFree path) → SpansFree (largestLine label file count) := by
    intro label file count hlabel hfile
    cases file with
    | none => exact spansFree_nil
    | some path =>
      have hpath : EscapeFree path := hfile path (List.mem_singleton_self path)
      simp +decide [largestLine, plain, hlabel, hpath]
  have hin := hlargest "Most imported" statistics.maxFanInFile statistics.maxFanIn (by decide)
    fun path hp => h path (List.mem_append_left _ hp)
  have hout := hlargest "Most imports" statistics.maxFanOutFile statistics.maxFanOut (by decide)
    fun path hp => h path (List.mem_append_right _ hp)
  unfold statisticsText
  cases verbose <;> simp +decide [hin, hout]

theorem spansFree_graphText {graph : Graph} (h : ∀ text ∈ graph.texts, EscapeFree text)
    (verbose : Bool) : SpansFree (graphText verbose graph) := by
  have hnode : ∀ path ∈ graph.nodes, EscapeFree path :=
    fun path hp => h path (List.mem_append_left _ hp)
  have hedge := escapeFree_edges_iff.mp fun text ht => h text (List.mem_append_right _ ht)
  have hstatistics : SpansFree (statisticsText verbose graph.statistics) :=
    spansFree_statisticsText
      (fun text ht => hnode text (Graph.mem_nodes_of_mem_texts_statistics ht)) verbose
  have hkind : ∀ kind, EscapeFree (kindSpan kind).text := by
    intro kind
    cases kind <;> decide
  -- The edges listed below a node are edges of the graph, so their strings are among those given.
  have hlines : ∀ node, ∀ edge ∈ (Grouping.ofPairs
      (graph.edges.map fun edge => (edge.source, edge))).values node, edge ∈ graph.edges := by
    intro node edge he
    rw [Grouping.values_ofPairs] at he
    obtain ⟨pair, hpair, rfl⟩ := List.mem_map.mp he
    obtain ⟨edge, hedge, rfl⟩ := List.mem_map.mp (List.mem_filter.mp hpair).1
    exact hedge
  unfold graphText
  simp +decide only [spansFree_append, spansFree_flatMap, spansFree_line, spansFree_plainLine,
    spansFree_cons, spansFree_nil, plain, escapeFree_append, and_true, true_and]
  refine ⟨hstatistics, fun node hnodes => ⟨hnode node hnodes, fun edge he => ?_⟩⟩
  exact ⟨(hedge edge (hlines node edge he)).2, hkind edge.kind⟩

theorem spansFree_cyclesText {cycles : List (List String)}
    (h : ∀ text ∈ cycles.flatten, EscapeFree text) : SpansFree (cyclesText cycles) := by
  have hchain : ∀ entry ∈ cycles.zipIdx 1, EscapeFree (cycleChain entry.1) := by
    intro entry he
    have hcycle : entry.1 ∈ cycles := List.fst_mem_of_mem_zipIdx he
    exact escapeFree_cycleChain fun path hp => h path (List.mem_flatten.mpr ⟨_, hcycle, hp⟩)
  have hfound := escapeFree_plural (show EscapeFree "import cycle" by decide) cycles.length
  have hlength := fun count => escapeFree_plural (show EscapeFree "file" by decide) count
  unfold cyclesText
  split
  · simp +decide
  · simp +decide only [spansFree_append, spansFree_flatMap, spansFree_line, spansFree_plainLine,
      spansFree_cons, spansFree_nil, escapeFree_append, hfound, hlength, and_true, true_and]
    exact fun entry he => ⟨escapeFree_repr entry.2, hchain entry he⟩

theorem spansFree_impactText {impact : Impact} (h : ∀ text ∈ impact.texts, EscapeFree text)
    (verbose : Bool) : SpansFree (impactText verbose impact) := by
  have htarget : EscapeFree impact.target := h impact.target List.mem_cons_self
  -- A group is listed under the distance of an entry, and each of its files is an entry itself.
  have hpaths : ∀ distance paths, (distance, paths) ∈ impact.byDistance →
      ∀ path ∈ paths, EscapeFree path := by
    intro distance paths hgroup path hpath
    obtain ⟨other, -, hother⟩ := List.mem_map.mp hgroup
    obtain ⟨rfl, rfl⟩ := Prod.mk.inj hother
    have hentry := (impact.mem_atDistance_iff other path).mp hpath
    exact h path (List.mem_cons_of_mem _ (List.mem_map_of_mem hentry))
  have hsize := escapeFree_plural (show EscapeFree "dependent file" by decide) impact.size
  have hhops := fun count => escapeFree_plural (show EscapeFree "hop" by decide) count
  unfold impactText
  split
  · simp +decide [plain, htarget, hsize]
  · cases verbose <;> simpa +decide [plain, htarget, hsize, hhops] using hpaths

theorem spansFree_externalText {modules : Dictionary Nat}
    (h : ∀ name ∈ modules.keys, EscapeFree name) : SpansFree (externalText modules) := by
  have hnames : ∀ name count, (name, count) ∈ modules.entries → EscapeFree name :=
    fun name count he => h name (List.mem_map_of_mem he)
  have hcounts := fun count => escapeFree_plural (show EscapeFree "import" by decide) count
  unfold externalText
  split
  · exact spansFree_nil
  · simpa +decide [plain, hcounts] using hnames

theorem spansFree_unresolvedText {edges : List Edge}
    (h : ∀ text ∈ edges.flatMap Edge.texts, EscapeFree text) : SpansFree (unresolvedText edges) := by
  unfold unresolvedText
  split
  · exact spansFree_nil
  · simpa +decide [plain] using escapeFree_edges_iff.mp h

theorem spansFree_rankingText {ranking : List BlastRadius}
    (h : ∀ path ∈ ranking.map (·.path), EscapeFree path) (verbose : Bool) :
    SpansFree (rankingText verbose ranking) := by
  have hline : ∀ entry ∈ ranking, SpansFree (rankingLine entry) := by
    intro entry he
    have hpath : EscapeFree entry.path := h entry.path (List.mem_map_of_mem he)
    have hcount := escapeFree_padLeft (show escape ≠ ' ' by decide) (escapeFree_repr entry.dependents) 5
    unfold rankingLine
    simp +decide [hpath, hcount]
  have hshown : ∀ shown, SpansFree ((ranking.take shown).flatMap rankingLine) := fun shown =>
    spansFree_flatMap.mpr fun entry he => hline entry (List.mem_of_mem_take he)
  -- How many are shown depends on the verbosity, which is not split on here.
  have hmore : ∀ shown, SpansFree (if shown < ranking.length then
      plainLine ("  ... and " ++ toString (ranking.length - shown) ++ " more") else []) := by
    intro shown
    split <;> simp +decide
  unfold rankingText
  refine spansFree_append.mpr ⟨spansFree_append.mpr ⟨?_, hshown _⟩, hmore _⟩
  simp +decide [plain]

theorem spansFree_reportText {report : Report} (h : ∀ text ∈ report.texts, EscapeFree text)
    (verbose : Bool) : SpansFree (reportText verbose report) := by
  unfold Report.texts at h
  simp only [List.forall_mem_append] at h
  obtain ⟨⟨⟨⟨⟨⟨hnames, -⟩, hstatistics⟩, hcycles⟩, hunresolved⟩, hexternal⟩, hranking⟩ := h
  have hrepository : EscapeFree report.repository := hnames _ (by simp)
  have hroot : EscapeFree report.rootPath := hnames _ (by simp)
  have htitle : EscapeFree (reportTitle report) := by
    unfold reportTitle
    split <;> simp +decide [hrepository]
  have hhead : SpansFree (if verbose then plainLine ("Root: " ++ report.rootPath) ++
      plainLine ("Generated: " ++ report.generatedAt.formatOffset) else []) := by
    cases verbose <;> simp +decide [hroot, escapeFree_formatOffset]
  unfold reportText
  simp only [spansFree_append, spansFree_line, spansFree_plainLine, spansFree_cons, spansFree_nil,
    and_true]
  refine ⟨⟨⟨⟨⟨⟨⟨⟨htitle, by decide⟩, hhead⟩, spansFree_statisticsText hstatistics verbose⟩,
    by decide⟩, spansFree_cyclesText hcycles⟩, spansFree_externalText hexternal⟩,
    spansFree_unresolvedText hunresolved⟩, ?_⟩
  cases hsome : report.blastRadius with
  | none => exact spansFree_nil
  | some ranking =>
    rw [hsome] at hranking
    exact spansFree_rankingText hranking verbose

/-! ## Brief forms -/

theorem escapeFree_graphBrief (graph : Graph) : EscapeFree (graphBrief graph) := by
  simp +decide [graphBrief]

theorem escapeFree_cyclesBrief (cycles : List (List String)) :
    EscapeFree (cyclesBrief cycles) := by
  simp +decide [cyclesBrief]

theorem escapeFree_impactBrief {impact : Impact} (h : ∀ text ∈ impact.texts, EscapeFree text) :
    EscapeFree (impactBrief impact) := by
  refine escapeFree_join fun text ht => ?_
  obtain ⟨⟨path, distance⟩, hentry, rfl⟩ := List.mem_map.mp ht
  have hkey : path ∈ impact.dependents.keys :=
    List.mem_map_of_mem ((impact.mem_nearestFirst_iff _).mp hentry)
  have hpath : EscapeFree path := h path (List.mem_cons_of_mem _ hkey)
  simp +decide [hpath]

theorem escapeFree_reportBrief (report : Report) : EscapeFree (reportBrief report) := by
  unfold reportBrief
  split <;> simp +decide

end Render

namespace Renderer

/-- Whether the text in colours is, without the colours, the text without colours. -/
def KeepsText (renderer : Renderer) (render : Renderer → Except Error String) : Prop :=
  ∃ text, render { renderer with colours := true } = .ok text ∧
    render { renderer with colours := false } = .ok (uncoloured text)

theorem keepsText_of_spans {renderer : Renderer} {render : Renderer → Except Error String}
    {brief : String} {spans : List Span} (hbrief : EscapeFree brief) (hspans : SpansFree spans)
    (h : ∀ colours, render { renderer with colours } =
      if renderer.quiet then .ok brief else .ok (showSpans colours spans)) :
    renderer.KeepsText render := by
  unfold KeepsText
  rw [h, h]
  cases renderer.quiet with
  | true => exact ⟨brief, rfl, congrArg Except.ok hbrief.uncoloured_eq.symm⟩
  | false => exact ⟨_, rfl, congrArg Except.ok (uncoloured_showSpans hspans).symm⟩

/-- **Colours do not change what is said**: whatever else a renderer of text is told, what it says of a
graph, of cycles, of an impact and of a report in colours is without the colours what it says without
colours, if there is no escape character in the strings of the outcome. -/
theorem colours_keepText {renderer : Renderer} (hformat : renderer.format = .text) :
    (∀ graph : Graph, (∀ text ∈ graph.texts, EscapeFree text) →
      renderer.KeepsText (·.graph graph)) ∧
    (∀ cycles : List (List String), (∀ text ∈ cycles.flatten, EscapeFree text) →
      renderer.KeepsText (·.cycles cycles)) ∧
    (∀ impact : Impact, (∀ text ∈ impact.texts, EscapeFree text) →
      renderer.KeepsText (·.impact impact)) ∧
    ∀ report : Report, (∀ text ∈ report.texts, EscapeFree text) →
      renderer.KeepsText (·.report report) := by
  refine ⟨fun graph h => ?_, fun cycles h => ?_, fun impact h => ?_, fun report h => ?_⟩
  · refine keepsText_of_spans (escapeFree_graphBrief graph)
      (spansFree_graphText h renderer.verbose) fun colours => ?_
    simp only [Renderer.graph, hformat]
  · refine keepsText_of_spans (escapeFree_cyclesBrief cycles) (spansFree_cyclesText h)
      fun colours => ?_
    simp only [Renderer.cycles, hformat]
  · refine keepsText_of_spans (escapeFree_impactBrief h)
      (spansFree_impactText h renderer.verbose) fun colours => ?_
    simp only [Renderer.impact, hformat]
  · refine keepsText_of_spans (escapeFree_reportBrief report)
      (spansFree_reportText h renderer.verbose) fun colours => ?_
    simp only [Renderer.report, hformat]

/-- A file whose name would be a control sequence behind an escape character, in a report with a cycle,
a module, an unresolved import and a ranking. -/
theorem colours_keepText_bracket :
    let renderer : Renderer := { verbose := true }
    let graph : Graph :=
      { nodes := ["[0m.py", "b.py"],
        edges := [⟨"[0m.py", "b.py", .direct⟩, ⟨"b.py", "[0m.py", .direct⟩,
          ⟨"b.py", "requests", .external⟩, ⟨"b.py", "missing", .unresolved⟩] }
    let cycles := [["[0m.py", "b.py"]]
    let impact : Impact := ⟨"[0m.py", .ofEntries [("b.py", 1)]⟩
    let statistics : Statistics :=
      { totalNodes := 2, totalEdges := 4, directEdges := 2, dynamicEdges := 0, externalEdges := 1,
        unresolvedEdges := 1, isolatedFiles := 0, maxFanIn := 1, maxFanInFile := some "[0m.py",
        maxFanOut := 1, maxFanOutFile := some "[0m.py" }
    let report : Report :=
      { repository := "demo", rootPath := "/demo", generatedAt := ⟨⟨2024, 1, 1⟩, 0, 0, 0⟩, graph,
        statistics, cycles, unresolvedImports := [⟨"b.py", "missing", .unresolved⟩],
        externalModules := .ofEntries [("requests", 1)], blastRadius := some [impact.blastRadius] }
    ({ renderer with colours := true } : Renderer).impact impact =
        .ok ("Impact of \x1b[1;34m[0m.py\x1b[0m: 1 dependent file\n\n" ++
          "  \x1b[1m1 hop away (1)\x1b[0m\n    b.py\n\nDirect dependents: 1, furthest: 1 hop\n") ∧
      renderer.KeepsText (·.graph graph) ∧ renderer.KeepsText (·.cycles cycles) ∧
      renderer.KeepsText (·.impact impact) ∧ renderer.KeepsText (·.report report) := by
  intro renderer graph cycles impact statistics report
  have hformat : renderer.format = .text := rfl
  obtain ⟨hgraph, hcycles, himpact, hreport⟩ := colours_keepText hformat
  exact ⟨by decide +kernel, hgraph graph (by decide), hcycles cycles (by decide),
    himpact impact (by decide), hreport report (by decide)⟩

end Renderer

end ImportAtlas
