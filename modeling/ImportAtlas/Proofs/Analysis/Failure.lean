import ImportAtlas.Proofs.Analysis.Agreement
import ImportAtlas.Proofs.Graph.Objections

/-!
# When an analysis fails

All that can go wrong in an analysis goes wrong in building the graph. The graph that has been built
is well formed, so its cycles are found and each of its files has an impact.

## Main results

* `fault?_analyzeBy`: an analysis fails as the build of its graph does
* `build_fails_iff_objection`: builds and analyses fail exactly with the first objection
-/

namespace ImportAtlas

/-- **An analysis fails as the build of its graph does**, whether the files are ranked or not. -/
theorem fault?_analyzeBy (scheduler : Scheduler) (settings : Settings) (custom : Option Resolver)
    (ranked : Bool) (processors : Nat) (now : Instant) (repository : Repository) :
    Outcome.fault? (analyzeBy scheduler settings custom ranked processors now repository) =
      Outcome.fault? (Graph.build settings.buildOptions custom repository) := by
  cases h : Graph.build settings.buildOptions custom repository with
  | error e =>
    rw [analyzeBy_of_build_error scheduler settings custom processors now h]
    rfl
  | ok graph =>
    have hw : graph.WellFormed := (Graph.builtFrom_of_build h).wellFormed
    cases ranked with
    | true =>
      obtain ⟨impacts, himpacts⟩ := hw.exists_impacts
      rw [analyzeBy_of_build_ok scheduler settings custom processors now h himpacts]
      rfl
    | false =>
      rw [analyzeBy_unranked_of_build_ok scheduler settings custom processors now h]
      rfl

/-- **A build fails exactly if there is an objection, with the first one**, and an analysis fails in the
same cases with the same error. No build gets as far as a fault in assembling the graph. -/
theorem build_fails_iff_objection (repository : Repository) (custom : Option Resolver) :
    (∀ (options : BuildOptions) (e : Error), Graph.build options custom repository = .error e ↔
      (options.objections repository).head? = some e) ∧
    (∀ options : BuildOptions, ¬∃ kept table fault, repository.check = .ok () ∧
      Graph.exclude options.excludePatterns repository = .ok kept ∧
      SymbolTable.build kept options.rules (custom.getD (kept.resolver options.rules)) = .ok table ∧
      Graph.assemble kept table = .error fault) ∧
    ∀ (scheduler : Scheduler) (settings : Settings) (ranked : Bool) (processors : Nat) (now : Instant)
      (e : Error), analyzeBy scheduler settings custom ranked processors now repository = .error e ↔
        (settings.buildOptions.objections repository).head? = some e := by
  refine ⟨?_, ?_, ?_⟩
  · intro options e
    rw [Outcome.eq_error_iff, Graph.fault?_build]
  · rintro options ⟨kept, table, fault, hcheck, hkept, htable, hfault⟩
    obtain rfl := Graph.eq_kept_of_exclude hkept
    obtain ⟨graph, hgraph⟩ :=
      Graph.exists_assemble_of_build (options.nodup_paths_kept hcheck) htable
    cases hgraph.symm.trans hfault
  · intro scheduler settings ranked processors now e
    rw [Outcome.eq_error_iff, fault?_analyzeBy, Graph.fault?_build]

end ImportAtlas
