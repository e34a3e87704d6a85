import ImportAtlas.Proofs.Digraph.Reach
import ImportAtlas.Proofs.Graph.WellFormed
import ImportAtlas.Proofs.Walk
import Mathlib.Data.List.Nodup

/-!
# Places and paths

Searches run on the places of nodes, while graphs are about the paths of files. In a graph whose
nodes are distinct the two agree: the place of a path is unique, and there is an arrow between two
places exactly if there is an edge of a wanted kind between their paths.

## Main definitions

* `Graph.Imports`: an edge of some kind between two paths

## Main results

* `placeOf_eq_some_iff`: the place of a path
* `mem_arrows_iff`: arrows are edges between paths
* `walk_get_iff`, `reaches_get_iff`: walks between files are walks between their places
-/

namespace ImportAtlas.Graph

variable (graph : Graph)

/-- Whether an edge of a kind that `wanted` accepts leads from one path to another. -/
def Imports (wanted : EdgeKind → Bool) (source target : String) : Prop :=
  ∃ edge ∈ graph.edges, wanted edge.kind = true ∧ edge.source = source ∧ edge.target = target

instance (wanted : EdgeKind → Bool) (source target : String) :
    Decidable (graph.Imports wanted source target) :=
  inferInstanceAs (Decidable (∃ edge ∈ graph.edges,
    wanted edge.kind = true ∧ edge.source = source ∧ edge.target = target))

theorem getElem?_foldl_insert {α : Type} (key : α → String) (values : List α)
    (known : Std.HashMap String α) (path : String) :
    (values.foldl (fun known value => known.insert (key value) value) known)[path]? =
      (values.reverse.find? (key · == path)).or known[path]? := by
  induction values generalizing known with
  | nil => simp
  | cons value values ih =>
    rw [List.foldl_cons, ih, List.reverse_cons, List.find?_append, Option.or_assoc,
      Std.HashMap.getElem?_insert]
    by_cases h : key value = path <;> simp [h]

theorem placeOf_eq (path : String) :
    graph.placeOf[path]? =
      (List.finRange graph.nodes.length).reverse.find? (graph.nodes.get · == path) := by
  rw [placeOf, getElem?_foldl_insert]
  simp

variable {graph}

theorem get_eq_of_placeOf {path : String} {place : Fin graph.nodes.length}
    (h : graph.placeOf[path]? = some place) : graph.nodes.get place = path := by
  rw [placeOf_eq] at h
  simpa using List.find?_some h

/-- Of distinct nodes, each has one place. -/
theorem placeOf_eq_some_iff (hd : graph.nodes.Nodup) {path : String}
    {place : Fin graph.nodes.length} :
    graph.placeOf[path]? = some place ↔ graph.nodes.get place = path := by
  refine ⟨get_eq_of_placeOf, fun h => ?_⟩
  cases hf : graph.placeOf[path]? with
  | none =>
    rw [placeOf_eq, List.find?_eq_none] at hf
    exact absurd (by simpa using h) (hf place (by simp))
  | some other =>
    rw [hd.get_inj_iff.mp ((get_eq_of_placeOf hf).trans h.symm)]

theorem placeOf_eq_none_iff (hd : graph.nodes.Nodup) {path : String} :
    graph.placeOf[path]? = none ↔ path ∉ graph.nodes := by
  rw [Option.eq_none_iff_forall_ne_some, List.mem_iff_get, not_exists]
  exact forall_congr' fun place => not_congr (placeOf_eq_some_iff hd)

/-- Arrows are the edges of the wanted kinds between paths of nodes. -/
theorem mem_arrows_iff (hd : graph.nodes.Nodup) (wanted : EdgeKind → Bool)
    (tail head : Fin graph.nodes.length) :
    (tail, head) ∈ graph.arrows wanted ↔
      graph.Imports wanted (graph.nodes.get tail) (graph.nodes.get head) := by
  simp only [arrows, List.mem_filterMap, Imports]
  refine exists_congr fun edge => and_congr_right fun _ => ?_
  by_cases hk : wanted edge.kind = true
  · rw [if_pos hk, and_iff_right hk, eq_comm (a := edge.source), eq_comm (a := edge.target),
      ← placeOf_eq_some_iff hd, ← placeOf_eq_some_iff hd]
    constructor
    · intro h
      split at h
      · next hs ht =>
        obtain ⟨rfl, rfl⟩ := Prod.mk.inj (Option.some.inj h)
        exact ⟨hs, ht⟩
      · cases h
    · rintro ⟨hs, ht⟩
      rw [hs, ht]
  · simp [hk]

/-! ## Walks between files -/

section Walks

variable {step : String → String → Prop}
  {arrow : Fin graph.nodes.length → Fin graph.nodes.length → Prop}
  (harrow : ∀ a b, arrow a b ↔ step (graph.nodes.get a) (graph.nodes.get b))
  (hclosed : ∀ place path, step (graph.nodes.get place) path → path ∈ graph.nodes)

include harrow hclosed

/-- A walk that starts at a node and only leads to nodes is one between places. -/
theorem exists_walk_places {start : Fin graph.nodes.length} {length : Nat} {path : String}
    (h : Walk step (graph.nodes.get start) length path) :
    ∃ place, graph.nodes.get place = path ∧ Walk arrow start length place := by
  induction h with
  | nil => exact ⟨start, rfl, .nil⟩
  | snoc _ hlast ih =>
    obtain ⟨middle, rfl, hwalk⟩ := ih
    obtain ⟨place, rfl⟩ := List.mem_iff_get.mp (hclosed middle _ hlast)
    exact ⟨place, rfl, hwalk.snoc ((harrow middle place).mpr hlast)⟩

variable (hd : graph.nodes.Nodup)

include hd

/-- **Walks between files are walks between their places.** -/
theorem walk_get_iff (a b : Fin graph.nodes.length) (length : Nat) :
    Walk step (graph.nodes.get a) length (graph.nodes.get b) ↔ Walk arrow a length b := by
  constructor
  · intro h
    obtain ⟨place, he, hwalk⟩ := exists_walk_places harrow hclosed h
    obtain rfl := hd.get_inj_iff.mp he
    exact hwalk
  · intro h
    exact h.map graph.nodes.get fun tail head ha => (harrow tail head).mp ha

theorem reaches_get_iff (a b : Fin graph.nodes.length) :
    Relation.ReflTransGen step (graph.nodes.get a) (graph.nodes.get b) ↔
      Relation.ReflTransGen arrow a b := by
  rw [reflTransGen_iff_exists_walk, reflTransGen_iff_exists_walk]
  exact exists_congr fun length => walk_get_iff harrow hclosed hd a b length

end Walks

end ImportAtlas.Graph
