import ImportAtlas.Proofs.Glob.Compiled
import ImportAtlas.Proofs.Graph.Build

/-!
# Objections to building a graph

A graph can be built unless something speaks against it, and all that can do so is found in the
description of the repository and in the options: a violation of the rules for descriptions, a faulty
pattern, or too many files. The error of a build is the first objection. Nothing can go wrong in
assembling the graph, since the table that it is assembled from has been made for the files that are
left.

## Main definitions

* `BuildOptions.excludes`, `BuildOptions.kept`: the files that are left out, and those that are left
* `BuildOptions.objections`: what speaks against building the graph of a repository

## Main results

* `exists_assemble_of_build`: assembling from the table of a repository does not fail
* `exists_table_of_build`: the graph that is built, in terms of the table
* `fault?_build`: a build fails with the first objection
-/

namespace ImportAtlas

namespace BuildOptions

variable (options : BuildOptions)

/-- Whether an exclude pattern describes a path. -/
def excludes (path : String) : Bool :=
  options.excludePatterns.any (Glob.describes · path)

/-- The repository without the files that are left out. -/
def kept (repository : Repository) : Repository :=
  { repository with files := repository.files.filter fun file => !options.excludes file.path }

/-- What speaks against building the graph of a repository, in the order in which it is looked at: a
violation of the rules for descriptions, the faulty exclude patterns, a limit lower than the number of
files left, and the faulty dynamic patterns. -/
def objections (repository : Repository) : List Error :=
  let count := (options.kept repository).files.length
  (Outcome.fault? repository.check).toList.map Violation.toError ++
    (options.excludePatterns.filterMap Glob.fault?).map Error.glob ++
    (options.maxNodes.filter fun limit => limit < count).toList.map (Error.nodeLimit count) ++
    (options.rules.dynamicPatterns.filterMap Glob.fault?).map Error.glob

theorem paths_kept (repository : Repository) :
    (options.kept repository).paths = repository.paths.filter fun path => !options.excludes path := by
  unfold kept Repository.paths
  rw [List.filter_map]
  rfl

theorem nodup_paths_kept {repository : Repository} (h : repository.check = .ok ()) :
    (options.kept repository).paths.Nodup := by
  rw [paths_kept]
  exact (repository.check_eq_ok_iff.mp h).1.filter _

end BuildOptions

namespace Graph

/-! ## The stages -/

theorem fault?_exclude (patterns : List String) (repository : Repository) :
    Outcome.fault? (exclude patterns repository) = patterns.findSome? Glob.fault? := by
  unfold exclude
  rw [Outcome.fault?_bind_pure, fault?_compilePatterns]

theorem eq_kept_of_exclude {options : BuildOptions} {repository kept : Repository}
    (h : exclude options.excludePatterns repository = .ok kept) : kept = options.kept repository := by
  obtain ⟨compiled, hcompile, rfl⟩ := (exclude_eq_ok_iff _ _ _).mp h
  unfold BuildOptions.kept BuildOptions.excludes
  simp only [anyAccepts_eq_any_describes hcompile]

theorem fault?_checkLimit (limit : Option Nat) (count : Nat) :
    Outcome.fault? (checkLimit limit count) =
      (limit.filter fun limit => limit < count).map (Error.nodeLimit count) := by
  unfold checkLimit
  cases limit with
  | none => rfl
  | some limit => by_cases h : limit < count <;> simp [h, Outcome.fault?, Option.filter_some]

theorem fault?_symbolTable_build (repository : Repository) (rules : ImportRules)
    (resolver : Resolver) :
    Outcome.fault? (SymbolTable.build repository rules resolver) =
      (rules.dynamicPatterns.findSome? Glob.fault?).map Error.glob := by
  unfold SymbolTable.build Classifier.ofRules
  simp only [Outcome.fault?_bind_pure, Outcome.fault?_mapError, fault?_compilePatterns]

/-- **Assembling does not fail** on a repository of distinct paths and the table that has been made for
it. -/
theorem exists_assemble_of_build {repository : Repository} {rules : ImportRules}
    {resolver : Resolver} {table : SymbolTable} (hnodup : repository.paths.Nodup)
    (htable : SymbolTable.build repository rules resolver = .ok table) :
    ∃ graph, assemble repository table = .ok graph := by
  obtain ⟨classifier, -, hgraph⟩ := exists_assemble_eq hnodup htable
  exact ⟨_, hgraph⟩

/-- **A graph that is built is made from the table of the files that are left.** -/
theorem exists_table_of_build {options : BuildOptions} {custom : Option Resolver}
    {repository : Repository} {graph : Graph} (h : build options custom repository = .ok graph) :
    ∃ table, SymbolTable.build (options.kept repository) options.rules
        (custom.getD ((options.kept repository).resolver options.rules)) = .ok table ∧
      graph = ⟨(options.kept repository).paths,
        (table.edges (options.kept repository).imports).eraseDups⟩ := by
  obtain ⟨-, kept, hkept, -, table, htable, hgraph⟩ := (build_eq_ok_iff _ _ _ _).mp h
  obtain rfl := eq_kept_of_exclude hkept
  refine ⟨table, htable, ?_⟩
  rw [assemble_eq] at hgraph
  split at hgraph
  · cases hgraph
  · split at hgraph
    · cases hgraph
    · exact (Except.ok.inj hgraph).symm

/-- Resolving the imports of distinct files and assembling the graph. -/
theorem fault?_resolve {repository : Repository} (hnodup : repository.paths.Nodup)
    (rules : ImportRules) (resolver : Resolver) :
    Outcome.fault? (do
      let table ← SymbolTable.build repository rules resolver
      (assemble repository table).mapError AssemblyFault.toError) =
        (rules.dynamicPatterns.findSome? Glob.fault?).map Error.glob := by
  have hassemble : ∀ table, SymbolTable.build repository rules resolver = .ok table →
      Outcome.fault? ((assemble repository table).mapError AssemblyFault.toError) = none := by
    intro table htable
    obtain ⟨graph, hgraph⟩ := exists_assemble_of_build hnodup htable
    rw [hgraph]
    rfl
  rw [Outcome.fault?_bind hassemble, fault?_symbolTable_build, Option.or_none]

theorem head?_objections (options : BuildOptions) (repository : Repository) :
    (options.objections repository).head? =
      ((Outcome.fault? repository.check).map Violation.toError).or
        (((options.excludePatterns.findSome? Glob.fault?).map Error.glob).or
          ((((options.maxNodes.filter fun limit =>
              limit < (options.kept repository).files.length).map
                (Error.nodeLimit (options.kept repository).files.length))).or
            ((options.rules.dynamicPatterns.findSome? Glob.fault?).map Error.glob))) := by
  unfold BuildOptions.objections
  simp only [List.head?_append, List.head?_map, List.head?_filterMap, Option.head?_toList,
    Option.or_assoc]

/-- **A build fails with the first objection**, and does not fail without one. -/
theorem fault?_build (options : BuildOptions) (custom : Option Resolver) (repository : Repository) :
    Outcome.fault? (build options custom repository) = (options.objections repository).head? := by
  -- A stage is reached with what the stages before it have made, so each is taken off the front in
  -- turn together with its objection.
  rw [head?_objections, ← Outcome.fault?_mapError]
  refine Outcome.fault?_bind ?_
  intro _ hcheck
  rw [← fault?_exclude _ repository, ← Outcome.fault?_mapError]
  refine Outcome.fault?_bind ?_
  intro kept hkept
  obtain rfl := eq_kept_of_exclude (Outcome.mapError_eq_ok_iff.mp hkept)
  rw [← fault?_checkLimit]
  have hnodup := options.nodup_paths_kept (Outcome.mapError_eq_ok_iff.mp hcheck)
  exact Outcome.fault?_bind fun _ _ => fault?_resolve hnodup options.rules _

end Graph

end ImportAtlas
