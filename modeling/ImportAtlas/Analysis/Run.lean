import ImportAtlas.Analysis.Pool
import ImportAtlas.Analysis.Report
import ImportAtlas.Graph.Build
import ImportAtlas.Graph.Components
import ImportAtlas.Graph.Dependents

/-!
# Analysing a repository

An analysis builds the graph of a repository, finds its cycles and, if asked, the impact of each
of its files, and gathers all of it in a report. The impacts are worked out one after the other or
by a pool of workers.

## Main definitions

* `Graph.impactsBy`, `Graph.impacts`: the impact of each file, by a pool
* `ReverseIndex.impactsInTurn`: the impact of each file, one after the other
* `analyzeBy`, `analyze`: the analysis of a repository
-/

namespace ImportAtlas

/-- The impact of each file of a graph in the order of its nodes, worked out by a pool under a
schedule, with the reports on the progress. -/
def Graph.impactsBy (graph : Graph) (workers : Workers) (scheduler : Scheduler) :
    Except Error (List Impact × List Progress) := do
  let index ← ReverseIndex.create graph
  let (outcome, updates) := workers.processBy scheduler index.impactOf graph.nodes
  let impacts ← outcome
  return (impacts, updates)

/-- The impact of each file of a graph in the order of its nodes, by workers that take turns. -/
def Graph.impacts (graph : Graph) (workers : Workers) :
    Except Error (List Impact × List Progress) :=
  graph.impactsBy workers .turns

/-- The impacts of files from the one numbered `done + 1` on, out of `total`, one after the other,
with a report after each. -/
def ReverseIndex.impactsInTurn (index : ReverseIndex) (total : Nat) (done : Nat) :
    List String → Except Error (List Impact × List Progress)
  | [] => .ok ([], [])
  | path :: paths => do
    let impact ← index.impactOf path
    let (impacts, updates) ← index.impactsInTurn total (done + 1) paths
    return (impact :: impacts, .afterFiles (done + 1) total :: updates)

/-- What an analysis gives: the report, and the progress made on the way. -/
structure Analysis where
  report : Report
  progress : List Progress := []
  deriving DecidableEq

/-- The impact of each file of a graph, by a pool of workers if the settings say so. -/
def Settings.impactsBy (settings : Settings) (scheduler : Scheduler) (processors : Nat)
    (graph : Graph) : Except Error (List Impact × List Progress) :=
  if settings.parallel then graph.impactsBy (.ofThreads processors settings.threads) scheduler
  else do
    let index ← ReverseIndex.create graph
    index.impactsInTurn graph.nodes.length 0 graph.nodes

/-- The analysis of a repository on a machine with some processors, its pool moving under a
schedule: its graph, its cycles and, if `ranked`, the ranking of its files. -/
def analyzeBy (scheduler : Scheduler) (settings : Settings) (custom : Option Resolver)
    (ranked : Bool) (processors : Nat) (now : Instant) (repository : Repository) :
    Except Error Analysis := do
  let graph ← Graph.build settings.buildOptions custom repository
  let cycles ← graph.cycles
  let report := Report.create repository.name repository.rootPath now graph cycles
  if ranked then
    let (impacts, progress) ← settings.impactsBy scheduler processors graph
    return ⟨report.withBlastRadius impacts, progress⟩
  else return ⟨report, []⟩

/-- The analysis of a repository, the workers of its pool taking turns. -/
def analyze (settings : Settings) (custom : Option Resolver) (ranked : Bool) (processors : Nat)
    (now : Instant) (repository : Repository) : Except Error Analysis :=
  analyzeBy .turns settings custom ranked processors now repository

end ImportAtlas
