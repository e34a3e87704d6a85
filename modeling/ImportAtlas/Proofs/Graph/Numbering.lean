import ImportAtlas.Graph.Numbering
import ImportAtlas.Proofs.Graph.WellFormed
import ImportAtlas.Proofs.Unseen
import Std.Data.HashMap.Lemmas

/-!
# Numbered graphs

A numbering has a label for each number and a number for each label. While edges are added to it, a
target gets the next number unless it has one already, so the labels are the nodes and the targets, each
where it occurs first. What has been numbered keeps its number, and so every arrow goes on standing for
the edge that it was made from.

## Main definitions

* `Numbering.edge?`: the edge that an arrow stands for
* `Numbering.Depicts`: whether a numbering has given labels and its arrows stand for given edges

## Main results

* `Numbering.Depicts.push`, `Numbering.Depicts.ensure`, `Numbering.Depicts.addEdge`: one step
* `Graph.WellFormed.depicts_numbering`: a numbering depicts its graph
* `Graph.numbering_faithful`: a graph can be read off its numbering
-/

namespace ImportAtlas

namespace Numbering

/-- The edge that an arrow stands for, between the labels of its ends. -/
def edge? (numbering : Numbering) (arrow : Arrow) : Option Edge :=
  match numbering.labels[arrow.source]?, numbering.labels[arrow.target]? with
  | some source, some target => some ⟨source, target, arrow.kind⟩
  | _, _ => none

/-- Whether the labels of a numbering are given names, each where it occurs first, with the places of
labels as their numbers, and the arrows stand for given edges. -/
structure Depicts (numbering : Numbering) (names : List String) (edges : List Edge) : Prop where
  labels_eq : numbering.labels.toList = names.eraseDups
  number_iff : ∀ (label : String) (n : Nat),
    numbering.numbers[label]? = some n ↔ numbering.labels[n]? = some label
  edges_eq : numbering.arrows.toList.map numbering.edge? = edges.map some

variable {numbering : Numbering} {names : List String} {edges : List Edge} {name : String}

theorem edge?_eq_some_iff {arrow : Arrow} {edge : Edge} :
    numbering.edge? arrow = some edge ↔ numbering.labels[arrow.source]? = some edge.source ∧
      numbering.labels[arrow.target]? = some edge.target ∧ arrow.kind = edge.kind := by
  unfold edge?
  split
  · next source target hs ht =>
    rw [hs, ht, Option.some.injEq, Option.some.injEq, Option.some.injEq, Edge.mk.injEq]
  · next hnone =>
    constructor
    · intro h
      cases h
    · rintro ⟨hs, ht, -⟩
      exact absurd ht (hnone _ _ hs)

theorem depicts_empty : Depicts .empty [] [] where
  labels_eq := rfl
  number_iff := by simp [empty]
  edges_eq := rfl

theorem Depicts.contains_iff (h : numbering.Depicts names edges) (name : String) :
    numbering.numbers.contains name = true ↔ name ∈ names := by
  rw [Std.HashMap.contains_iff_mem, Std.HashMap.mem_iff_isSome_getElem?, Option.isSome_iff_exists,
    ← List.mem_eraseDups, ← h.labels_eq, Array.mem_toList_iff, Array.mem_iff_getElem?]
  exact exists_congr (h.number_iff name)

theorem labels_push (numbering : Numbering) (name : String) (n : Nat) :
    (numbering.push name).labels[n]? =
      if n = numbering.labels.size then some name else numbering.labels[n]? :=
  Array.getElem?_push

/-- What has a number keeps it. -/
theorem labels_push_of_eq_some {n : Nat} {label : String} (h : numbering.labels[n]? = some label)
    (name : String) : (numbering.push name).labels[n]? = some label := by
  obtain ⟨hlt, -⟩ := Array.getElem?_eq_some_iff.mp h
  rw [labels_push, if_neg (Nat.ne_of_lt hlt)]
  exact h

theorem labels_ensure_of_eq_some {n : Nat} {label : String} (h : numbering.labels[n]? = some label)
    (name : String) : (numbering.ensure name).labels[n]? = some label := by
  unfold ensure
  split
  · exact h
  · exact labels_push_of_eq_some h name

/-- What an arrow stands for does not change by a push. -/
theorem edge?_push {arrow : Arrow} {edge : Edge} (h : numbering.edge? arrow = some edge)
    (name : String) : (numbering.push name).edge? arrow = some edge := by
  obtain ⟨hs, ht, hk⟩ := edge?_eq_some_iff.mp h
  exact edge?_eq_some_iff.mpr
    ⟨labels_push_of_eq_some hs name, labels_push_of_eq_some ht name, hk⟩

/-- **A new name gets the next number.** -/
theorem Depicts.push (h : numbering.Depicts names edges) (hnew : name ∉ names) :
    (numbering.push name).Depicts (names ++ [name]) edges where
  labels_eq := by
    show (numbering.labels.push name).toList = _
    rw [Array.toList_push, h.labels_eq, eraseDups_concat, if_neg (by simpa using hnew)]
  number_iff := by
    intro label n
    show (numbering.numbers.insert name numbering.labels.size)[label]? = some n ↔ _
    have hfree : ∀ n : Nat, numbering.labels[n]? ≠ some name := by
      intro n hn
      apply hnew
      rw [← List.mem_eraseDups, ← h.labels_eq, Array.mem_toList_iff]
      exact Array.mem_of_getElem? hn
    rw [Std.HashMap.getElem?_insert, labels_push]
    by_cases hlabel : name = label
    · -- The new label has no other place.
      subst hlabel
      by_cases hn : n = numbering.labels.size
      · simp [hn]
      · simp [hn, hfree n, Ne.symm hn]
    · by_cases hn : n = numbering.labels.size
      · -- No other label has the new place.
        simp [hn, hlabel, h.number_iff]
      · simp [hn, hlabel, h.number_iff]
  edges_eq := by
    show numbering.arrows.toList.map (numbering.push name).edge? = _
    rw [← h.edges_eq]
    apply List.map_congr_left
    intro arrow harrow
    have hmem : numbering.edge? arrow ∈ edges.map some := by
      rw [← h.edges_eq]
      exact List.mem_map_of_mem harrow
    obtain ⟨edge, -, hedge⟩ := List.mem_map.mp hmem
    rw [← hedge, edge?_push hedge.symm name]

/-- **A name that has a number keeps it**, and any other one gets the next number. -/
theorem Depicts.ensure (h : numbering.Depicts names edges) (name : String) :
    (numbering.ensure name).Depicts (names ++ [name]) edges := by
  unfold Numbering.ensure
  by_cases hname : name ∈ names
  · rw [if_pos ((h.contains_iff name).mpr hname)]
    refine ⟨?_, h.number_iff, h.edges_eq⟩
    rw [h.labels_eq, eraseDups_concat, if_pos (by simpa using hname)]
  · rw [if_neg fun hcontains => hname ((h.contains_iff name).mp hcontains)]
    exact h.push hname

theorem Depicts.exists_number (h : numbering.Depicts names edges) (hname : name ∈ names) :
    ∃ n, numbering.numbers[name]? = some n := by
  rw [← h.contains_iff, Std.HashMap.contains_iff_mem, Std.HashMap.mem_iff_isSome_getElem?] at hname
  exact Option.isSome_iff_exists.mp hname

/-- **One more edge gets an arrow of its own**, between the numbers of its ends. -/
theorem Depicts.addEdge (h : numbering.Depicts names edges) {edge : Edge}
    (hsource : edge.source ∈ names) :
    (numbering.addEdge edge).Depicts (names ++ [edge.target]) (edges ++ [edge]) := by
  obtain ⟨source, hs⟩ := h.exists_number hsource
  have hextended := h.ensure edge.target
  obtain ⟨target, ht⟩ := hextended.exists_number (List.mem_append_right names List.mem_cons_self)
  -- The source keeps its number if the target gets one.
  have hs' := labels_ensure_of_eq_some ((h.number_iff _ _).mp hs) edge.target
  have harrow : (numbering.ensure edge.target).edge? ⟨source, target, edge.kind⟩ = some edge :=
    edge?_eq_some_iff.mpr ⟨hs', (hextended.number_iff _ _).mp ht, rfl⟩
  simp only [Numbering.addEdge, hs, ht]
  refine ⟨hextended.labels_eq, hextended.number_iff, ?_⟩
  show ((numbering.ensure edge.target).arrows.push _).toList.map
    (numbering.ensure edge.target).edge? = _
  rw [Array.toList_push, List.map_append, hextended.edges_eq, List.map_append, List.map_singleton,
    List.map_singleton, harrow]

/-! ## Whole graphs -/

/-- Nodes get their numbers in order. -/
theorem Depicts.foldl_push {nodes : List String} (h : numbering.Depicts names edges)
    (hnodup : (names ++ nodes).Nodup) :
    (nodes.foldl Numbering.push numbering).Depicts (names ++ nodes) edges := by
  induction nodes generalizing numbering names with
  | nil => rwa [List.append_nil]
  | cons node nodes ih =>
    have hnew : node ∉ names := by
      intro hmem
      exact (List.nodup_append.mp hnodup).2.2 node hmem node List.mem_cons_self rfl
    rw [List.append_cons] at hnodup ⊢
    exact ih (h.push hnew) hnodup

/-- Edges get their arrows in order, if they start at names that have numbers. -/
theorem Depicts.foldl_addEdge {later : List Edge} (h : numbering.Depicts names edges)
    (hsource : ∀ edge ∈ later, edge.source ∈ names) :
    (later.foldl Numbering.addEdge numbering).Depicts (names ++ later.map (·.target))
      (edges ++ later) := by
  induction later generalizing numbering names edges with
  | nil => rwa [List.map_nil, List.append_nil, List.append_nil]
  | cons edge later ih =>
    obtain ⟨hfirst, hlater⟩ := List.forall_mem_cons.mp hsource
    have hstep := h.addEdge hfirst
    have hkeep : ∀ other ∈ later, other.source ∈ names ++ [edge.target] :=
      fun other ho => List.mem_append_left _ (hlater other ho)
    rw [List.map_cons, List.append_cons names, List.append_cons edges]
    exact ih hstep hkeep

end Numbering

namespace Graph

variable {graph : Graph}

/-- **A numbering depicts its graph**: it has the nodes and the targets as labels, and an arrow for each
edge. -/
theorem WellFormed.depicts_numbering (hw : graph.WellFormed) :
    graph.numbering.Depicts (graph.nodes ++ graph.edges.map (·.target)) graph.edges := by
  have hnodes : (graph.nodes.foldl Numbering.push .empty).Depicts graph.nodes [] :=
    Numbering.depicts_empty.foldl_push hw.nodes_nodup
  exact hnodes.foldl_addEdge hw.source_mem

/-- **A graph that passes its check can be read off its numbering.** The labels are the nodes in order,
and behind them each other target of an edge, in the order in which they appear. The number of a label
is its place, and nothing else has a number. The arrows stand for the edges, in order. -/
theorem numbering_faithful (hok : graph.check = .ok ()) :
    graph.numbering.labels.toList = graph.nodes ++
        ((graph.edges.map (·.target)).filter fun target => !graph.nodes.contains target).eraseDups ∧
      (∀ (label : String) (n : Nat),
        graph.numbering.numbers[label]? = some n ↔ graph.numbering.labels[n]? = some label) ∧
      graph.numbering.arrows.toList.map graph.numbering.edge? = graph.edges.map some := by
  have hw := (check_eq_ok_iff graph).mp hok
  have hdepicts := hw.depicts_numbering
  refine ⟨?_, hdepicts.number_iff, hdepicts.edges_eq⟩
  rw [hdepicts.labels_eq, List.eraseDups_append, eraseDups_eq_self hw.nodes_nodup]
  rfl

/-- A module that two files import, one of them twice, and an import that is spelled like a file and
leads to none. -/
theorem numbering_faithful_modules :
    let graph : Graph := ⟨["a.py", "b.py"], [⟨"a.py", "os", .external⟩, ⟨"a.py", "b.py", .direct⟩,
      ⟨"b.py", "os", .external⟩, ⟨"b.py", "a.py", .unresolved⟩, ⟨"b.py", "os", .unresolved⟩]⟩
    graph.check = .ok () ∧ graph.numbering.labels.toList = ["a.py", "b.py", "os"] ∧
      graph.numbering.numbers["os"]? = some 2 ∧
      graph.numbering.arrows.toList.map graph.numbering.edge? = graph.edges.map some := by
  intro graph
  have hok : graph.check = .ok () := by
    rw [check_eq_ok_iff]
    decide
  obtain ⟨hlabels, hnumbers, hedges⟩ := numbering_faithful hok
  have hvalue : graph.numbering.labels.toList = ["a.py", "b.py", "os"] :=
    hlabels.trans (by decide)
  refine ⟨hok, hvalue, ?_, hedges⟩
  rw [hnumbers, ← Array.getElem?_toList, hvalue]
  rfl

end Graph

end ImportAtlas
