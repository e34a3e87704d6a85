import ImportAtlas.Proofs.Graph.CycleImpact
import ImportAtlas.Proofs.Graph.Locality
import ImportAtlas.Proofs.Import.Resolution

/-!
# Direct imports decide about cycles

There is a cycle in a graph if some file reaches itself through direct edges. The direct edges of a
graph that is built are the direct imports of other files in the description, so descriptions that have
the same files and agree on these imports have cycles or have none alike, whatever else they import:
files at run time, modules, what does not resolve, or themselves.

## Main definitions

* `BuildOptions.IsDirectImport`: the direct imports of other files
* `BuildOptions.SameDirectImports`: descriptions of the same files that agree on them

## Main results

* `WellFormed.cyclesUnchecked_ne_nil_iff`: there is a cycle if a file reaches itself
* `imports_direct_iff`: the direct edges of a graph that is built
* `exists_build_of_sameDirectImports`: descriptions that agree on direct imports are built alike
-/

namespace ImportAtlas

/-! ## Files that reach themselves -/

section Loops

variable {graph : Graph} (hw : graph.WellFormed)

include hw

/-- A file that reaches itself lies on a cycle. -/
theorem Graph.WellFormed.isImportCycle_component {file : String} (hfile : file ∈ graph.nodes)
    (hloop : Relation.TransGen (graph.Imports (· == .direct)) file file) :
    graph.IsImportCycle (graph.component file) := by
  refine ⟨file, hfile, rfl, ?_⟩
  have hself : file ∈ graph.component file := ⟨hfile, .refl, .refl⟩
  -- The way back to the file begins with an edge, to the file itself or to another one.
  obtain ⟨next, himports, hback⟩ := Relation.TransGen.head'_iff.mp hloop
  by_cases heq : next = file
  · subst heq
    rcases Set.eq_singleton_or_nontrivial hself with hsingle | hnontrivial
    · exact .inr ⟨hsingle, himports⟩
    · exact .inl hnontrivial
  · obtain ⟨edge, he, hk, -, ht⟩ := id himports
    have hinternal : edge.kind.isInternal = true := by
      rw [beq_iff_eq.mp hk]
      rfl
    have hnext : next ∈ graph.component file :=
      ⟨ht ▸ hw.target_mem edge he hinternal, .single himports, hback⟩
    exact .inl ⟨next, hnext, file, hself, heq⟩

/-- **There is a cycle if some file reaches itself** through direct edges. -/
theorem Graph.WellFormed.cyclesUnchecked_ne_nil_iff :
    graph.cyclesUnchecked ≠ [] ↔
      ∃ file ∈ graph.nodes, Relation.TransGen (graph.Imports (· == .direct)) file file := by
  have hlists := Graph.listsCycles_cyclesUnchecked hw
  constructor
  · intro hne
    obtain ⟨cycle, hcycle⟩ := List.exists_mem_of_ne_nil _ hne
    obtain ⟨file, hfile, hfiles, hnontrivial | ⟨-, himports⟩⟩ := hlists.isImportCycle cycle hcycle
    · rw [hfiles] at hnontrivial
      obtain ⟨other, ⟨-, hto, hback⟩, hne⟩ := hnontrivial.exists_ne file
      -- The way to another file has at least one edge.
      rcases Relation.reflTransGen_iff_eq_or_transGen.mp hto with heq | hto
      · exact absurd heq hne
      · exact ⟨file, hfile, hto.trans_left hback⟩
    · exact ⟨file, hfile, .single himports⟩
  · rintro ⟨file, hfile, hloop⟩ hnil
    obtain ⟨index, -⟩ := hlists.existsUnique _ (hw.isImportCycle_component hfile hloop)
    rw [hnil] at index
    exact index.elim0

end Loops

/-! ## Direct edges -/

/-- The rules give an import one resolution. -/
theorem ImportRules.ResolvesTo.unique {rules : ImportRules} {paths : List String}
    {answer : Option String} {rawImport : String} {found other : Resolution}
    (h : rules.ResolvesTo paths answer rawImport found)
    (h' : rules.ResolvesTo paths answer rawImport other) : found = other := by
  cases h with
  | dynamic hanswer hmem hdynamic =>
    cases h' with
    | dynamic hanswer' =>
      obtain rfl := Option.some.inj (hanswer.symm.trans hanswer')
      rfl
    | direct _ _ hdynamic' => exact absurd hdynamic hdynamic'
    | external hanswer' => exact absurd hanswer (hanswer' _ hmem)
    | unresolved hanswer' => exact absurd hanswer (hanswer' _ hmem)
  | direct hanswer hmem hdynamic =>
    cases h' with
    | dynamic _ _ hdynamic' => exact absurd hdynamic' hdynamic
    | direct hanswer' =>
      obtain rfl := Option.some.inj (hanswer.symm.trans hanswer')
      rfl
    | external hanswer' => exact absurd hanswer (hanswer' _ hmem)
    | unresolved hanswer' => exact absurd hanswer (hanswer' _ hmem)
  | external hanswer hexternal =>
    cases h' with
    | dynamic hanswer' hmem => exact absurd hanswer' (hanswer _ hmem)
    | direct hanswer' hmem => exact absurd hanswer' (hanswer _ hmem)
    | external => rfl
    | unresolved _ hexternal' => exact absurd hexternal hexternal'
  | unresolved hanswer hexternal =>
    cases h' with
    | dynamic hanswer' hmem => exact absurd hanswer' (hanswer _ hmem)
    | direct hanswer' hmem => exact absurd hanswer' (hanswer _ hmem)
    | external _ hexternal' => exact absurd hexternal' hexternal
    | unresolved => rfl

namespace BuildOptions

variable (options : BuildOptions)

/-- Whether an import of a file is a direct import of another file, by the convention of the rules and
among the files that are left. -/
def IsDirectImport (repository : Repository) (source rawImport target : String) : Prop :=
  target ≠ source ∧ options.rules.ResolvesTo (options.kept repository).paths
    (((options.kept repository).resolver options.rules).find? rawImport source) rawImport
    ⟨some target, .direct⟩

/-- Whether two descriptions have the same files and agree on their direct imports of other files. -/
structure SameDirectImports (left right : Repository) : Prop where
  paths_eq : left.paths = right.paths
  mem_imports_iff : ∀ source rawImport target, options.IsDirectImport left source rawImport target →
    ((source, rawImport) ∈ left.imports ↔ (source, rawImport) ∈ right.imports)

variable {options} in
theorem mem_imports_kept_iff (repository : Repository) (source rawImport : String) :
    (source, rawImport) ∈ (options.kept repository).imports ↔
      (source, rawImport) ∈ repository.imports ∧ options.excludes source = false := by
  simp only [Repository.mem_imports_iff, kept, List.mem_filter, Bool.not_eq_true']
  constructor
  · rintro ⟨file, ⟨hfile, hkept⟩, rfl, hraw⟩
    exact ⟨⟨file, hfile, rfl, hraw⟩, hkept⟩
  · rintro ⟨⟨file, hfile, rfl, hraw⟩, hkept⟩
    exact ⟨file, ⟨hfile, hkept⟩, rfl, hraw⟩

/-- Whether a file is left out depends on its path only. -/
theorem paths_kept_congr {left right : Repository} (h : left.paths = right.paths) :
    (options.kept left).paths = (options.kept right).paths := by
  rw [paths_kept, paths_kept, h]

end BuildOptions

namespace Graph

variable {options : BuildOptions} {repository : Repository} {graph : Graph}

theorem nodes_eq_of_build {custom : Option Resolver}
    (h : build options custom repository = .ok graph) :
    graph.nodes = (options.kept repository).paths := by
  obtain ⟨table, -, rfl⟩ := exists_table_of_build h
  rfl

/-- What the edge of an import says of its resolution. -/
theorem of_edgeOf?_eq_some {source rawImport : String} {resolution : Resolution} {edge : Edge}
    (h : edgeOf? source rawImport resolution = some edge) :
    source = edge.source ∧ resolution.kind = edge.kind ∧
      ∀ path, resolution.path = some path → path = edge.target ∧ path ≠ source := by
  rw [edgeOf?_eq] at h
  split at h
  · cases h
  · rename_i hself
    obtain rfl := Option.some.inj h
    refine ⟨rfl, rfl, ?_⟩
    rintro path hpath
    rw [hpath] at hself ⊢
    exact ⟨rfl, fun heq => hself (congrArg some heq)⟩

/-- **The direct edges of a graph that is built** are the direct imports of other files. -/
theorem imports_direct_iff (h : build options none repository = .ok graph)
    (source target : String) :
    graph.Imports (· == .direct) source target ↔ ∃ rawImport,
      (source, rawImport) ∈ (options.kept repository).imports ∧
        options.IsDirectImport repository source rawImport target := by
  obtain ⟨-, kept, hkept, -, table, htable, hgraph⟩ := (build_eq_ok_iff _ _ _ _).mp h
  obtain rfl := eq_kept_of_exclude hkept
  rw [Option.getD_none] at htable
  obtain ⟨classifier, hrules, hget⟩ := SymbolTable.get?_of_build htable
  obtain ⟨-, -, hedges⟩ := (assemble_eq_ok_iff _ table graph).mp hgraph
  have hmem := (collectEdges_spec hedges).2
  have hresolves := fun source rawImport => Classifier.resolvesTo_classify hrules
    (options.kept repository).paths
    (((options.kept repository).resolver options.rules).find? rawImport source) rawImport
  constructor
  · rintro ⟨edge, he, hk, hs, ht⟩
    obtain ⟨-, ⟨origin, rawImport⟩, hpair, resolution, hres, hedge⟩ := (hmem edge).mp he
    rw [hget, if_pos hpair] at hres
    have hown := hresolves origin rawImport
    rw [Option.some.inj hres] at hown
    obtain ⟨horigin, hkind, htarget⟩ := of_edgeOf?_eq_some hedge
    rw [← hkind] at hk
    -- Of the four resolutions only the direct one has a direct edge.
    cases hown with
    | dynamic => simp at hk
    | external => simp at hk
    | unresolved => simp at hk
    | direct hanswer hin hdynamic =>
      obtain ⟨rfl, hne⟩ := htarget _ rfl
      obtain rfl := horigin.trans hs
      exact ⟨rawImport, hpair, ht ▸ hne, ht ▸ .direct hanswer hin hdynamic⟩
  · rintro ⟨rawImport, hpair, hne, hdirect⟩
    have hclassify := (hresolves source rawImport).unique hdirect
    refine ⟨⟨source, target, .direct⟩, (hmem _).mpr ⟨Std.HashSet.not_mem_empty,
      (source, rawImport), hpair, ⟨some target, .direct⟩, ?_, ?_⟩, rfl, rfl, rfl⟩
    · rw [hget, if_pos hpair]
      exact congrArg some hclassify
    · simp [edgeOf?, hne]

/-- Descriptions of the same files have the same files left and the same direct imports. -/
theorem isDirectImport_iff_of_paths_eq {left right : Repository} (h : left.paths = right.paths)
    (source rawImport target : String) :
    options.IsDirectImport left source rawImport target ↔
      options.IsDirectImport right source rawImport target := by
  have hpaths := options.paths_kept_congr h
  have hresolver : (options.kept left).resolver options.rules =
      (options.kept right).resolver options.rules := by
    unfold Repository.resolver
    rw [hpaths]
  unfold BuildOptions.IsDirectImport
  rw [hpaths, hresolver]

/-- **Descriptions that agree on their direct imports are built alike**, to graphs with the same direct
edges. -/
theorem exists_build_of_sameDirectImports {left right : Repository}
    (hleft : build options none left = .ok graph) (hcheck : right.check = .ok ())
    (hsame : options.SameDirectImports left right) :
    ∃ graph', build options none right = .ok graph' ∧ graph'.nodes = graph.nodes ∧
      graph'.Imports (· == .direct) = graph.Imports (· == .direct) := by
  have hcheckLeft := ((build_eq_ok_iff _ _ _ _).mp hleft).1
  have hpaths := options.paths_kept_congr hsame.paths_eq
  have hcount : (options.kept left).files.length = (options.kept right).files.length := by
    simpa [Repository.paths] using congrArg List.length hpaths
  -- Nothing else can speak against one of the builds and not against the other.
  have hobjections : options.objections right = options.objections left := by
    unfold BuildOptions.objections
    rw [hcheck, hcheckLeft, hcount]
  have hfault : Outcome.fault? (build options none right) = none := by
    rw [fault?_build, hobjections, ← fault?_build options none, hleft]
    rfl
  cases hright : build options none right with
  | error e =>
    rw [hright] at hfault
    cases hfault
  | ok graph' =>
    refine ⟨graph', rfl, ?_, ?_⟩
    · rw [nodes_eq_of_build hright, nodes_eq_of_build hleft, hpaths]
    · ext source target
      rw [imports_direct_iff hright, imports_direct_iff hleft]
      refine exists_congr fun rawImport => ?_
      rw [BuildOptions.mem_imports_kept_iff, BuildOptions.mem_imports_kept_iff,
        ← isDirectImport_iff_of_paths_eq hsame.paths_eq]
      -- The two may differ in an import only if it is no direct one.
      refine and_congr_left fun hdirect => and_congr_left fun _ => ?_
      exact (hsame.mem_imports_iff source rawImport target hdirect).symm

end Graph

end ImportAtlas
