import ImportAtlas.Analysis.Run
import ImportAtlas.Proofs.Graph.Build
import ImportAtlas.Proofs.Pool.Outcome

/-!
# Working in turn or by a pool

A graph that has been built passes its check, so there is an impact of each of its files, and the
impacts come out alike and with the same reports whether they are worked out in turn or by a pool,
of whatever size and under whatever schedule. All else that an analysis does has nothing to do with
the pool. So an analysis fails alike either way, or gives the same report and the same progress.

## Main results

* `ReverseIndex.impactsInTurn_eq`: the impacts worked out in turn
* `Graph.WellFormed.impactsBy_eq`: the impacts as the settings have them worked out
* `analyzeBy_of_build_ok`, `analyzeBy_unranked_of_build_ok`: the analysis of a graph that has been built
* `analyzeBy_parallel_eq_sequential`: both ways of working agree
-/

namespace ImportAtlas

/-- Working in turn goes through all files, and counts on from what is done. -/
theorem ReverseIndex.impactsInTurn_eq {index : ReverseIndex} {paths : List String}
    {impacts : List Impact} (h : paths.map index.impactOf = impacts.map .ok) (total done : Nat) :
    index.impactsInTurn total done paths =
      .ok (impacts, (List.range paths.length).map fun k => .afterFiles (done + k + 1) total) := by
  induction paths generalizing impacts done with
  | nil =>
    obtain rfl := List.map_eq_nil_iff.mp h.symm
    rfl
  | cons path paths ih =>
    obtain ⟨impact, impacts, rfl, himpact, himpacts⟩ := List.map_eq_cons_iff.mp h.symm
    -- The first report is the next one, and the others count on from it.
    have hrange : (List.range (paths.length + 1)).map
        (fun k => Progress.afterFiles (done + k + 1) total) =
        .afterFiles (done + 1) total ::
          (List.range paths.length).map fun k => .afterFiles (done + 1 + k + 1) total := by
      rw [List.range_succ_eq_map, List.map_cons, List.map_map]
      refine congrArg _ (List.map_congr_left fun k _ => ?_)
      simp only [Function.comp_apply, Nat.succ_eq_add_one]
      congr 1
      omega
    rw [impactsInTurn, ← himpact, ih himpacts.symm, List.length_cons, hrange]
    rfl

section Graph

variable {graph : Graph}

theorem Graph.WellFormed.cycles_eq_ok (hw : graph.WellFormed) :
    graph.cycles = .ok graph.cyclesUnchecked := by
  rw [Graph.cycles_eq, (Graph.check_eq_ok_iff graph).mpr hw]
  rfl

theorem Graph.WellFormed.exists_impacts (hw : graph.WellFormed) :
    ∃ impacts : List Impact,
      graph.nodes.map (ReverseIndex.ofGraph graph).impactOf = impacts.map .ok := by
  refine Outcome.exists_map_eq_map_ok_iff.mpr fun path hp => ?_
  obtain ⟨impact, himpact, -⟩ := hw.impactOf_of_mem hp
  exact ⟨impact, himpact⟩

/-- **The impacts do not depend on how they are worked out**, nor do the reports. -/
theorem Graph.WellFormed.impactsBy_eq (hw : graph.WellFormed) {impacts : List Impact}
    (h : graph.nodes.map (ReverseIndex.ofGraph graph).impactOf = impacts.map .ok)
    (settings : Settings) (scheduler : Scheduler) (processors : Nat) :
    settings.impactsBy scheduler processors graph =
      .ok (impacts, (List.range graph.nodes.length).map fun done =>
        .afterFiles (done + 1) graph.nodes.length) := by
  unfold Settings.impactsBy
  split
  · have hprocess := Workers.processBy_of_ok (.ofThreads processors settings.threads) scheduler h
    simp only [Graph.impactsBy, hw.create_eq_ok, hprocess, bind, Except.bind, pure, Except.pure]
  · rw [hw.create_eq_ok]
    change (ReverseIndex.ofGraph graph).impactsInTurn graph.nodes.length 0 graph.nodes = _
    rw [ReverseIndex.impactsInTurn_eq h]
    simp only [Nat.zero_add]

end Graph

section Analysis

variable (scheduler : Scheduler) (settings : Settings) (custom : Option Resolver) (processors : Nat)
  (now : Instant) {repository : Repository}

theorem analyzeBy_of_build_error {ranked : Bool} {e : Error}
    (h : Graph.build settings.buildOptions custom repository = .error e) :
    analyzeBy scheduler settings custom ranked processors now repository = .error e := by
  unfold analyzeBy
  rw [h]
  rfl

theorem analyzeBy_of_build_ok {graph : Graph} {impacts : List Impact}
    (h : Graph.build settings.buildOptions custom repository = .ok graph)
    (himpacts : graph.nodes.map (ReverseIndex.ofGraph graph).impactOf = impacts.map .ok) :
    analyzeBy scheduler settings custom true processors now repository =
      .ok {
        report := (Report.create repository.name repository.rootPath now graph
          graph.cyclesUnchecked).withBlastRadius impacts
        progress := (List.range graph.nodes.length).map fun done =>
          .afterFiles (done + 1) graph.nodes.length } := by
  have hw : graph.WellFormed := (Graph.builtFrom_of_build h).wellFormed
  have himpactsBy := hw.impactsBy_eq himpacts settings scheduler processors
  unfold analyzeBy
  rw [h]
  simp only [hw.cycles_eq_ok, himpactsBy, if_true, bind, Except.bind, pure, Except.pure]

theorem analyzeBy_unranked_of_build_ok {graph : Graph}
    (h : Graph.build settings.buildOptions custom repository = .ok graph) :
    analyzeBy scheduler settings custom false processors now repository =
      .ok {
        report := Report.create repository.name repository.rootPath now graph
          graph.cyclesUnchecked } := by
  have hw : graph.WellFormed := (Graph.builtFrom_of_build h).wellFormed
  unfold analyzeBy
  rw [h]
  simp only [hw.cycles_eq_ok, Bool.false_eq_true, if_false, bind, Except.bind, pure, Except.pure]

end Analysis

/-- **An analysis by a pool agrees with one that works in turn**, whatever the number of threads and
the schedule. Either both fail, with the same error, or the reports differ in the time of the
analysis only, and the progress is the same, with one report for each file. The ranking is made from
the impacts of the files, which are those that the single queries give. -/
theorem analyzeBy_parallel_eq_sequential (scheduler : Scheduler) (settings : Settings)
    (threads : Option Nat) (custom : Option Resolver) (processors : Nat) (now later : Instant)
    (repository : Repository) :
    let parallel := { settings with parallel := true, threads := threads }
    let sequential := { settings with parallel := false }
    (∃ e, analyzeBy scheduler parallel custom true processors now repository = .error e ∧
        analyze sequential custom true processors later repository = .error e) ∨
      ∃ analysis index impacts,
        analyzeBy scheduler parallel custom true processors now repository = .ok analysis ∧
        analyze sequential custom true processors later repository =
          .ok { analysis with report := { analysis.report with generatedAt := later } } ∧
        analysis.progress = (List.range analysis.report.graph.nodes.length).map (fun done =>
          .afterFiles (done + 1) analysis.report.graph.nodes.length) ∧
        parallel.impactsBy scheduler processors analysis.report.graph =
          .ok (impacts, analysis.progress) ∧
        sequential.impactsBy .turns processors analysis.report.graph =
          .ok (impacts, analysis.progress) ∧
        ReverseIndex.create analysis.report.graph = .ok index ∧
        analysis.report.graph.nodes.map index.impactOf = impacts.map .ok ∧
        analysis.report.blastRadius = some (Report.rank impacts) := by
  intro parallel sequential
  cases h : Graph.build settings.buildOptions custom repository with
  | error e =>
    refine .inl ⟨e, ?_, ?_⟩
    · exact analyzeBy_of_build_error scheduler parallel custom processors now h
    · exact analyzeBy_of_build_error .turns sequential custom processors later h
  | ok graph =>
    have hw : graph.WellFormed := (Graph.builtFrom_of_build h).wellFormed
    obtain ⟨impacts, himpacts⟩ := hw.exists_impacts
    refine .inr ⟨_, .ofGraph graph, impacts,
      analyzeBy_of_build_ok scheduler parallel custom processors now h himpacts, ?_, rfl, ?_, ?_,
      hw.create_eq_ok, himpacts, rfl⟩
    · exact analyzeBy_of_build_ok .turns sequential custom processors later h himpacts
    · exact hw.impactsBy_eq himpacts parallel scheduler processors
    · exact hw.impactsBy_eq himpacts sequential .turns processors

end ImportAtlas
