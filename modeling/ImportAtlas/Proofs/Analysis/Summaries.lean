import ImportAtlas.Proofs.Analysis.Agreement
import ImportAtlas.Proofs.Graph.Locality
import ImportAtlas.Proofs.Graph.Statistics
import Mathlib.Algebra.BigOperators.Group.List.Lemmas

/-!
# Import summaries

A report sums up the imports that lead to no file: it lists those that mean nothing known, and for
each third-party module it counts the edges to it. As no edge of a graph that has been built is
listed twice, an edge to a module is a file that imports it, however often the file does and however
it spells the import. So what is counted are files, and the counts add up to the number of edges.

## Main definitions

* `Report.SummarizesImports`: when the summaries of a report agree with its graph

## Main results

* `Report.get?_tally`, `Report.sum_values_tally`: the counts of a tally, and their sum
* `Graph.count_target_eq_ncard`: the edges to a target, counted by their sources
* `summarizesImports_of_analyzeBy`: the summaries of the report of an analysis agree with its graph
-/

namespace ImportAtlas

/-! ## Tallies -/

namespace Report

/-- Going on counting from counts that have been made before. -/
theorem get?_foldl_tally (counts : Dictionary Nat) (texts : List String) (text : String) :
    (texts.foldl (fun counts text => counts.insert text ((counts.get? text).getD 0 + 1))
      counts).get? text =
        if text ∈ texts then some ((counts.get? text).getD 0 + texts.count text)
        else counts.get? text := by
  induction texts generalizing counts with
  | nil => simp
  | cons first texts ih =>
    rw [List.foldl_cons, ih, Dictionary.get?_insert]
    by_cases hfirst : text = first
    · subst hfirst
      by_cases hmem : text ∈ texts
      · simp [hmem, Nat.add_assoc, Nat.add_comm 1]
      · simp [hmem, List.count_eq_zero_of_not_mem hmem]
    · simp [hfirst, Ne.symm hfirst]

/-- **A tally gives every text in a list the number of times that it occurs.** -/
theorem get?_tally (texts : List String) (text : String) :
    (tally texts).get? text = if text ∈ texts then some (texts.count text) else none := by
  unfold tally
  rw [get?_foldl_tally]
  simp [Dictionary.empty, Dictionary.get?]

theorem mem_keys_tally_iff (texts : List String) (text : String) :
    text ∈ (tally texts).keys ↔ text ∈ texts := by
  rw [Dictionary.mem_keys_iff, get?_tally]
  split <;> simp [*]

/-- **The counts of a tally add up to the length of the list.** -/
theorem sum_values_tally (texts : List String) : (tally texts).values.sum = texts.length := by
  have hkeys : (tally texts).keys.Perm texts.dedup := by
    apply (List.perm_ext_iff_of_nodup (tally texts).nodup_keys texts.nodup_dedup).mpr
    intro text
    rw [mem_keys_tally_iff, List.mem_dedup]
  have hvalues : (tally texts).values = (tally texts).keys.map fun text => texts.count text := by
    apply List.map_injective_iff.mpr (Option.some_injective Nat)
    rw [← Dictionary.map_get?_keys, List.map_map]
    apply List.map_congr_left
    intro text htext
    rw [get?_tally, if_pos ((mem_keys_tally_iff texts text).mp htext)]
    rfl
  rw [hvalues, (hkeys.map _).sum_eq, List.sum_map_count_dedup_eq_length]

end Report

/-! ## Edges to a target -/

/-- **The edges of a kind to a target, counted by their sources**, in a graph that lists no edge
twice. -/
theorem Graph.count_target_eq_ncard {graph : Graph} (hnodup : graph.edges.Nodup) (kind : EdgeKind)
    (target : String) :
    ((graph.edgesOfKind kind).map (·.target)).count target =
      {source | graph.Imports (· == kind) source target}.ncard := by
  let found := (graph.edgesOfKind kind).filter (·.target == target)
  have hfound : ∀ edge, edge ∈ found ↔
      edge ∈ graph.edges ∧ edge.kind = kind ∧ edge.target = target := by
    intro edge
    rw [List.mem_filter, edgesOfKind, List.mem_filter, beq_iff_eq, beq_iff_eq, and_assoc]
  -- Edges that agree in their kind and their target differ in their source.
  have hsources : (found.map (·.source)).Nodup := by
    apply List.Nodup.map_on _ ((hnodup.filter _).filter _)
    intro a ha b hb hsource
    obtain ⟨-, hka, hta⟩ := (hfound a).mp ha
    obtain ⟨-, hkb, htb⟩ := (hfound b).mp hb
    cases a
    cases b
    simp_all
  have hset : {source | graph.Imports (· == kind) source target} =
      {source | source ∈ found.map (·.source)} := by
    ext source
    simp only [Set.mem_ofPred_eq, List.mem_map, hfound, Imports, beq_iff_eq]
    constructor
    · rintro ⟨edge, he, hk, hs, ht⟩
      exact ⟨edge, ⟨he, hk, ht⟩, hs⟩
    · rintro ⟨edge, ⟨he, hk, ht⟩, hs⟩
      exact ⟨edge, he, hk, hs, ht⟩
  rw [hset, ncard_setOf_mem_of_nodup hsources, List.length_map, List.count_eq_countP,
    List.countP_map, List.countP_eq_length_filter]
  rfl

/-! ## Reports -/

namespace Report

/-- When the summaries of a report agree with its graph. -/
structure SummarizesImports (report : Report) : Prop where
  /-- The unresolved edges are listed in the order of the graph. -/
  unresolvedImports_eq :
    report.unresolvedImports = report.graph.edges.filter (·.kind == .unresolved)
  length_unresolvedImports : report.unresolvedImports.length = report.statistics.unresolvedEdges
  /-- The modules are the targets of external edges. -/
  mem_keys_iff : ∀ text, text ∈ report.externalModules.keys ↔
    ∃ edge ∈ report.graph.edges, edge.kind = .external ∧ edge.target = text
  /-- For each module the distinct files are counted that have an external edge to it. -/
  get?_eq : ∀ text count, report.externalModules.get? text = some count → count =
    {path | path ∈ report.graph.nodes ∧ report.graph.Imports (· == .external) path text}.ncard
  sum_values : report.externalModules.values.sum = report.statistics.externalEdges

/-- **The summaries of a report on a graph agree with it**, if the edges of the graph start at its
nodes and none of them is listed twice. -/
theorem summarizesImports_create {graph : Graph} (hnodup : graph.edges.Nodup)
    (hsource : ∀ edge ∈ graph.edges, edge.source ∈ graph.nodes) (name root : String) (now : Instant)
    (cycles : List (List String)) : (create name root now graph cycles).SummarizesImports where
  unresolvedImports_eq := rfl
  length_unresolvedImports := (graph.countOfKind_eq .unresolved).symm
  mem_keys_iff := by
    intro text
    rw [create, mem_keys_tally_iff]
    simp [Graph.edgesOfKind, and_assoc]
  get?_eq := by
    intro text count hcount
    have hfiles : {path | path ∈ graph.nodes ∧ graph.Imports (· == .external) path text} =
        {path | graph.Imports (· == .external) path text} := by
      ext path
      apply and_iff_right_of_imp
      rintro ⟨edge, he, -, rfl, -⟩
      exact hsource edge he
    rw [create, get?_tally] at hcount
    split at hcount
    · show count = {path | path ∈ graph.nodes ∧ graph.Imports (· == .external) path text}.ncard
      rw [hfiles, ← Graph.count_target_eq_ncard hnodup]
      exact (Option.some.inj hcount).symm
    · cases hcount
  sum_values := by
    rw [create, sum_values_tally, List.length_map]
    exact (graph.countOfKind_eq .external).symm

/-- A ranking changes nothing in the summaries. -/
theorem SummarizesImports.withBlastRadius {report : Report} (h : report.SummarizesImports)
    (impacts : List Impact) : (report.withBlastRadius impacts).SummarizesImports where
  unresolvedImports_eq := h.unresolvedImports_eq
  length_unresolvedImports := h.length_unresolvedImports
  mem_keys_iff := h.mem_keys_iff
  get?_eq := h.get?_eq
  sum_values := h.sum_values

end Report

/-- **The summaries of the report of an analysis agree with its graph**, which is the one that is
built; the statistics are those of that graph. -/
theorem summarizesImports_of_analyzeBy {scheduler : Scheduler} {settings : Settings}
    {custom : Option Resolver} {ranked : Bool} {processors : Nat} {now : Instant}
    {repository : Repository} {analysis : Analysis}
    (h : analyzeBy scheduler settings custom ranked processors now repository = .ok analysis) :
    Graph.build settings.buildOptions custom repository = .ok analysis.report.graph ∧
      analysis.report.statistics = analysis.report.graph.statistics ∧
      analysis.report.SummarizesImports := by
  cases hbuild : Graph.build settings.buildOptions custom repository with
  | error e =>
    rw [analyzeBy_of_build_error scheduler settings custom processors now hbuild] at h
    cases h
  | ok graph =>
    have hbuilt := Graph.builtFrom_of_build hbuild
    have hsummaries := Report.summarizesImports_create hbuilt.edges_nodup hbuilt.source_mem
      repository.name repository.rootPath now graph.cyclesUnchecked
    cases ranked with
    | false =>
      rw [analyzeBy_unranked_of_build_ok scheduler settings custom processors now hbuild] at h
      obtain rfl := Except.ok.inj h
      exact ⟨rfl, rfl, hsummaries⟩
    | true =>
      obtain ⟨impacts, himpacts⟩ := hbuilt.wellFormed.exists_impacts
      rw [analyzeBy_of_build_ok scheduler settings custom processors now hbuild himpacts] at h
      obtain rfl := Except.ok.inj h
      exact ⟨rfl, rfl, hsummaries.withBlastRadius impacts⟩

/-- Two files that import the same module, one of them twice with blanks. -/
theorem summarizesImports_of_analyzeBy_spaced :
    let now : Instant := ⟨⟨2024, 1, 1⟩, 0, 0, 0⟩
    let settings : Settings :=
      { rules := { extensions := [".py"], indexFiles := [], externalModules := ["os"] } }
    let repository : Repository :=
      { rootPath := "/", files :=
          [{ path := "a.py", content := "", imports := ["os", " os", "b"] },
            { path := "b.py", content := "", imports := ["d", "os "] }] }
    ∃ analysis,
      analyzeBy .turns settings none false 1 now repository = .ok analysis ∧
      analysis.report.graph.edges = [⟨"a.py", "os", .external⟩, ⟨"a.py", "b.py", .direct⟩,
        ⟨"b.py", "d", .unresolved⟩, ⟨"b.py", "os", .external⟩] ∧
      analysis.report.externalModules.get? "os" = some 2 ∧
      analysis.report.SummarizesImports := by
  intro now settings repository
  let graph : Graph := ⟨["a.py", "b.py"], [⟨"a.py", "os", .external⟩, ⟨"a.py", "b.py", .direct⟩,
    ⟨"b.py", "d", .unresolved⟩, ⟨"b.py", "os", .external⟩]⟩
  have hbuild : Graph.build settings.buildOptions none repository = .ok graph := by
    have hcheck : repository.check = .ok () :=
      repository.check_eq_ok_iff.mpr ⟨by decide, by decide⟩
    have hrules : Classifier.ofRules settings.rules = .ok ⟨["os"], []⟩ := rfl
    refine (Graph.build_eq_ok_of_classifier none hcheck rfl rfl hrules).trans ?_
    simp only [Option.getD_none, Graph.importEdge?_resolver]
    decide +kernel
  have hanalysis := analyzeBy_unranked_of_build_ok .turns settings none 1 now hbuild
  obtain ⟨-, -, hsummaries⟩ := summarizesImports_of_analyzeBy hanalysis
  exact ⟨_, hanalysis, rfl, by decide, hsummaries⟩

end ImportAtlas
