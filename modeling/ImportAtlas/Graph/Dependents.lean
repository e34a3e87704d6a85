import ImportAtlas.Graph.Check
import ImportAtlas.Graph.Digraph
import ImportAtlas.Impact

/-!
# Transitive dependents

The dependents of a file are found by a traversal against the direction of the internal edges. The
places met wait in a queue, in the order in which they have been met. The traversal takes the first
one, and those of its successors that have not been met before get the next distance and join the
end of the queue. A bound is tested when a place is taken: the successors of a place that is as far
away as the bound are not looked at.

## Main definitions

* `Traversal`: the state of a traversal
* `Traversal.step`: one place is taken from the queue
* `Traversal.run`: the steps until the queue is empty
* `ReverseIndex`: the importers of every file of a well-formed graph
* `ReverseIndex.impactOf`, `ReverseIndex.impactWithin`: the impact of changing a file
-/

namespace ImportAtlas

/-- The state of a traversal. -/
structure Traversal (n : Nat) where
  /-- The distance of each place met. -/
  distance : Vector (Option Nat) n
  /-- The places met that have not been taken, the first to be taken in front. -/
  queue : List (Fin n)
  /-- The distance of each dependent, by its name. -/
  dependents : Dictionary Nat

namespace Traversal

variable {n : Nat}

/-- The state in which nothing but the start has been met. -/
def start (place : Fin n) : Traversal n where
  distance := (Vector.replicate n none).set place (some 0) place.isLt
  queue := [place]
  dependents := .empty

/-- Meets a successor of a place that is `hops` away, unless it has been met before. -/
def meet (name : Fin n → String) (hops : Nat) (state : Traversal n) (place : Fin n) : Traversal n :=
  if (state.distance.get place).isSome then state
  else
    { distance := state.distance.set place (some (hops + 1)) place.isLt
      queue := state.queue ++ [place]
      dependents := state.dependents.insert (name place) (hops + 1) }

/-- One step of a traversal; none if the queue is empty. -/
def step (digraph : Digraph n) (name : Fin n → String) (limit : Option Nat)
    (state : Traversal n) : Option (Traversal n) :=
  match state.queue with
  | [] => none
  | place :: queue =>
    let hops := (state.distance.get place).getD 0
    if limit.any (· ≤ hops) then some { state with queue }
    else some ((digraph.successors place).foldl (meet name hops) { state with queue })

/-! ## A run ends -/

/-- The number of places that are still to be taken, if all that have not been met are met. -/
def remaining (state : Traversal n) : Nat :=
  state.distance.countP Option.isNone + state.queue.length

/-- A place that is met leaves those not met and joins the queue. -/
theorem remaining_meet (name : Fin n → String) (hops : Nat) (state : Traversal n)
    (place : Fin n) : (state.meet name hops place).remaining = state.remaining := by
  unfold meet
  split
  · rfl
  · next hnone =>
    have hold : state.distance[place.val].isNone = true := by
      simpa [Row.get_eq_getElem] using hnone
    have hpos : 0 < state.distance.countP Option.isNone :=
      Vector.countP_pos_iff.2 ⟨state.distance[place.val], Vector.getElem_mem _, hold⟩
    simp only [remaining, List.length_append, List.length_singleton]
    rw [Vector.countP_set, if_pos hold, if_neg (by simp)]
    omega

theorem remaining_foldl_meet (name : Fin n → String) (hops : Nat) (places : List (Fin n))
    (state : Traversal n) :
    (places.foldl (meet name hops) state).remaining = state.remaining := by
  induction places generalizing state with
  | nil => rfl
  | cons place places ih => rw [List.foldl_cons, ih, remaining_meet]

/-- A step takes one place, and meets others without a change of the sum. -/
theorem remaining_step_lt {digraph : Digraph n} {name : Fin n → String} {limit : Option Nat}
    {state after : Traversal n} (h : state.step digraph name limit = some after) :
    after.remaining < state.remaining := by
  unfold step at h
  split at h
  · cases h
  · next place queue hq =>
    have htaken : remaining { state with queue } < state.remaining := by
      simp [remaining, hq]
    simp only at h
    split at h
    · cases h
      exact htaken
    · cases h
      rw [remaining_foldl_meet]
      exact htaken

/-- Runs a traversal until the queue is empty. -/
def run (digraph : Digraph n) (name : Fin n → String) (limit : Option Nat)
    (state : Traversal n) : Traversal n :=
  match _h : state.step digraph name limit with
  | none => state
  | some after => run digraph name limit after
termination_by state.remaining
decreasing_by exact remaining_step_lt _h

end Traversal

/-- The importers of every file of a graph. -/
structure ReverseIndex where
  graph : Graph
  places : Std.HashMap String (Fin graph.nodes.length)
  importers : Digraph graph.nodes.length

namespace ReverseIndex

/-- The index of a graph; the importers of a file are in the order of their places, each once. -/
def ofGraph (graph : Graph) : ReverseIndex where
  graph := graph
  places := graph.placeOf
  importers := (Digraph.ofArrows ((graph.arrows EdgeKind.isInternal).map Prod.swap)).sorted

/-- The index of a graph, provided that it is well formed. -/
def create (graph : Graph) : Except Error ReverseIndex := do
  graph.check.mapError Graph.Defect.toError
  return ofGraph graph

/-- The impact of changing a file, up to a distance if there is a bound. -/
def traverse (index : ReverseIndex) (target : String) (limit : Option Nat) : Except Error Impact :=
  match index.places[target]? with
  | none => .error (.unknownNode target)
  | some place =>
    let state := Traversal.run index.importers index.graph.nodes.get limit (.start place)
    .ok ⟨target, state.dependents⟩

/-- The impact of changing a file. -/
def impactOf (index : ReverseIndex) (target : String) : Except Error Impact :=
  index.traverse target none

/-- The impact of changing a file, up to a distance. -/
def impactWithin (index : ReverseIndex) (target : String) (limit : Nat) : Except Error Impact :=
  index.traverse target (some limit)

end ReverseIndex

/-- The dependents of a file of a graph, provided that the graph is well formed. -/
def Graph.dependentsOf (graph : Graph) (target : String) : Except Error (Dictionary Nat) := do
  let index ← ReverseIndex.create graph
  let impact ← index.impactOf target
  return impact.dependents

end ImportAtlas
