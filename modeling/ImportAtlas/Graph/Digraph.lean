import ImportAtlas.Graph.Basic
import ImportAtlas.Indexed
import Std.Data.HashMap

/-!
# Digraphs on the places of a list

For searches the nodes of a graph are replaced by their places in the list of nodes. A digraph
lists the successors of each place, in the order of the edges and with repetitions.

## Main definitions

* `Digraph`: the successors of each of `n` places
* `Digraph.ofArrows`: the digraph of a list of arrows
* `Graph.placeOf`: the place of every node
* `Graph.arrows`: the edges of some kinds, as arrows between places

## Main results

* `Digraph.successors_ofArrows`: the successors of a place are the heads of its arrows, in order
-/

namespace ImportAtlas

/-- The successors of each of `n` places. -/
structure Digraph (n : Nat) where
  table : Vector (List (Fin n)) n

namespace Digraph

variable {n : Nat}

/-- The successors of a place, in order. -/
def successors (digraph : Digraph n) (place : Fin n) : List (Fin n) :=
  digraph.table.get place

/-- The digraph without arrows. -/
def empty : Digraph n := ⟨Vector.replicate n []⟩

/-- The digraph with one more arrow, before the others of its tail. -/
def prepend (arrow : Fin n × Fin n) (digraph : Digraph n) : Digraph n :=
  ⟨digraph.table.set arrow.1 (arrow.2 :: digraph.successors arrow.1) arrow.1.isLt⟩

/-- The digraph of a list of arrows. -/
def ofArrows (arrows : List (Fin n × Fin n)) : Digraph n :=
  arrows.foldr prepend empty

theorem successors_prepend (arrow : Fin n × Fin n) (digraph : Digraph n) (place : Fin n) :
    (digraph.prepend arrow).successors place =
      if arrow.1 = place then arrow.2 :: digraph.successors place
      else digraph.successors place := by
  simp only [successors, prepend, Row.get_set]
  split
  · next h => rw [h]
  · rfl

theorem successors_ofArrows (arrows : List (Fin n × Fin n)) (place : Fin n) :
    (ofArrows arrows).successors place = (arrows.filter (·.1 == place)).map (·.2) := by
  induction arrows with
  | nil =>
    simp only [ofArrows, List.foldr_nil, successors, empty, Row.get_replicate, List.filter_nil,
      List.map_nil]
  | cons arrow arrows ih =>
    rw [ofArrows, List.foldr_cons, successors_prepend, List.filter_cons]
    by_cases h : arrow.1 = place
    · simpa [h, ofArrows] using ih
    · simpa [h, ofArrows] using ih

/-- The digraph with the successors of each place in their order, each once. -/
def sorted (digraph : Digraph n) : Digraph n :=
  ⟨digraph.table.map fun successors => (successors.mergeSort (· ≤ ·)).eraseReps⟩

/-- Whether a place is its own successor. -/
def hasLoop (digraph : Digraph n) (place : Fin n) : Bool :=
  (digraph.successors place).contains place

end Digraph

namespace Graph

/-- The place of every node; a node that is repeated has its last one. -/
def placeOf (graph : Graph) : Std.HashMap String (Fin graph.nodes.length) :=
  (List.finRange graph.nodes.length).foldl
    (fun places place => places.insert (graph.nodes.get place) place) ∅

/-- The edges of the kinds that `wanted` accepts, as arrows between places. -/
def arrows (graph : Graph) (wanted : EdgeKind → Bool) :
    List (Fin graph.nodes.length × Fin graph.nodes.length) :=
  let places := graph.placeOf
  graph.edges.filterMap fun edge =>
    if wanted edge.kind then
      match places[edge.source]?, places[edge.target]? with
      | some source, some target => some (source, target)
      | _, _ => none
    else none

end Graph

end ImportAtlas
