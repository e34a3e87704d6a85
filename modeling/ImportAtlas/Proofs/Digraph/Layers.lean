import ImportAtlas.Proofs.Digraph.Reach
import ImportAtlas.Proofs.Walk

/-!
# Layers are distances

The places around a place can be found round by round: the first layer holds its successors, and
each further layer the successors of the layer before that have not been met yet. If the places met
are those up to some distance and the layer holds those at that distance, then the next layer holds
the places at the next one. A layer without places is the last, since no distance is left out.

## Main definitions

* `Digraph.layers`: the layers around a place, up to a number of layers
* `Digraph.numberedLayers`: the places of the layers with their distances
* `Digraph.Frontier`: what the places met and the last layer are

## Main results

* `Frontier.next`: the frontier at the next distance
* `mem_layers_iff`: the places of a layer are those at its distance
* `mem_numberedLayers_iff`: the numbers of the layers are the distances
-/

namespace ImportAtlas.Digraph

variable {n : Nat}

/-- Notes a place as met, unless it has been met before. -/
def meet (sofar : Vector Bool n × List (Fin n)) (place : Fin n) : Vector Bool n × List (Fin n) :=
  if sofar.1.get place then sofar else (sofar.1.set place true place.isLt, place :: sofar.2)

/-- The successors of a layer that have not been met before, and all that have been met then. -/
def nextLayer (digraph : Digraph n) (met : Vector Bool n) (layer : List (Fin n)) :
    Vector Bool n × List (Fin n) :=
  layer.foldl (fun sofar place => (digraph.successors place).foldl meet sofar) (met, [])

/-- At most `count` layers after a layer, the places met before left out. -/
def layersFrom (digraph : Digraph n) (count : Nat) (met : Vector Bool n) (layer : List (Fin n)) :
    List (List (Fin n)) :=
  match count with
  | 0 => []
  | count + 1 =>
    match digraph.nextLayer met layer with
    | (_, []) => []
    | (met, next) => next :: digraph.layersFrom count met next

/-- At most `count` layers around a place. -/
def layers (digraph : Digraph n) (count : Nat) (place : Fin n) : List (List (Fin n)) :=
  digraph.layersFrom count ((Vector.replicate n false).set place true place.isLt) [place]

/-- The places of the layers, each with the number of its layer. -/
def numberedLayers (digraph : Digraph n) (count : Nat) (place : Fin n) : List (Fin n × Nat) :=
  ((digraph.layers count place).zipIdx 1).flatMap fun layer => layer.1.map fun p => (p, layer.2)

/-! ## Meeting places -/

theorem met_foldl_meet (places : List (Fin n)) (sofar : Vector Bool n × List (Fin n)) (p : Fin n) :
    (places.foldl meet sofar).1.get p = true ↔ sofar.1.get p = true ∨ p ∈ places := by
  induction places generalizing sofar with
  | nil => simp
  | cons place places ih =>
    rw [List.foldl_cons, ih, List.mem_cons, ← or_assoc]
    refine or_congr_left ?_
    unfold meet
    split
    · next hmet =>
      constructor
      · exact .inl
      · rintro (hp | rfl)
        · exact hp
        · exact hmet
    · rw [Row.get_set, eq_comm (a := p)]
      split <;> simp [*]

theorem mem_foldl_meet (places : List (Fin n)) (sofar : Vector Bool n × List (Fin n)) (p : Fin n) :
    p ∈ (places.foldl meet sofar).2 ↔
      p ∈ sofar.2 ∨ p ∈ places ∧ ¬sofar.1.get p = true := by
  induction places generalizing sofar with
  | nil => simp
  | cons place places ih =>
    rw [List.foldl_cons, ih, List.mem_cons]
    unfold meet
    split
    · next hmet =>
      constructor
      · rintro (hp | ⟨hp, hn⟩)
        · exact .inl hp
        · exact .inr ⟨.inr hp, hn⟩
      · rintro (hp | ⟨rfl | hp, hn⟩)
        · exact .inl hp
        · exact absurd hmet hn
        · exact .inr ⟨hp, hn⟩
    · next hmet =>
      rw [Row.get_set, List.mem_cons]
      -- The place joins the layer now, and counts as met for the places after it.
      by_cases he : place = p
      · subst he
        simp [hmet]
      · rw [if_neg he, or_iff_right (Ne.symm he), or_iff_right (Ne.symm he)]

section Next

variable (digraph : Digraph n) (met : Vector Bool n) (layer : List (Fin n))

theorem nextLayer_eq :
    digraph.nextLayer met layer = (layer.flatMap digraph.successors).foldl meet (met, []) :=
  List.foldl_flatMap.symm

theorem met_nextLayer (p : Fin n) :
    (digraph.nextLayer met layer).1.get p = true ↔
      met.get p = true ∨ ∃ q ∈ layer, digraph.HasArrow q p := by
  rw [nextLayer_eq, met_foldl_meet, List.mem_flatMap]
  rfl

theorem mem_nextLayer (p : Fin n) :
    p ∈ (digraph.nextLayer met layer).2 ↔
      (∃ q ∈ layer, digraph.HasArrow q p) ∧ ¬met.get p = true := by
  rw [nextLayer_eq, mem_foldl_meet, or_iff_right List.not_mem_nil, List.mem_flatMap]
  rfl

end Next

/-! ## The frontier of the search -/

/-- The places met are those up to a distance, and the last layer holds those at that distance. -/
structure Frontier (digraph : Digraph n) (start : Fin n) (distance : Nat) (met : Vector Bool n)
    (layer : List (Fin n)) : Prop where
  mem_layer : ∀ p, p ∈ layer ↔ IsDistance digraph.HasArrow start p distance
  met_iff : ∀ p, met.get p = true ↔ ∃ d ≤ distance, IsDistance digraph.HasArrow start p d

variable {digraph : Digraph n} {start : Fin n} {distance : Nat} {met : Vector Bool n}
  {layer : List (Fin n)}

theorem Frontier.initial (digraph : Digraph n) (start : Fin n) :
    digraph.Frontier start 0 ((Vector.replicate n false).set start true start.isLt) [start] where
  mem_layer := by
    intro p
    rw [List.mem_singleton, isDistance_zero_iff]
  met_iff := by
    intro p
    simp only [Nat.le_zero, exists_eq_left, isDistance_zero_iff]
    rw [Row.get_set, Row.get_replicate, eq_comm (a := p)]
    split <;> simp [*]

/-- **The next layer holds the places at the next distance.** -/
theorem Frontier.next (h : digraph.Frontier start distance met layer) :
    digraph.Frontier start (distance + 1) (digraph.nextLayer met layer).1
      (digraph.nextLayer met layer).2 := by
  have hnext : ∀ p, p ∈ (digraph.nextLayer met layer).2 ↔
      IsDistance digraph.HasArrow start p (distance + 1) := by
    intro p
    rw [mem_nextLayer, isDistance_succ_iff, h.met_iff]
    simp only [h.mem_layer, not_exists, not_and]
  refine ⟨hnext, fun p => ?_⟩
  constructor
  · intro hp
    -- A place that is met now is in the new layer unless it was met before.
    by_cases hmet : met.get p = true
    · obtain ⟨d, hd, hdist⟩ := (h.met_iff p).mp hmet
      exact ⟨d, hd.trans (Nat.le_succ _), hdist⟩
    · have harrow := ((met_nextLayer digraph met layer p).mp hp).resolve_left hmet
      have hmem := (mem_nextLayer digraph met layer p).mpr ⟨harrow, hmet⟩
      exact ⟨distance + 1, le_rfl, (hnext p).mp hmem⟩
  · rintro ⟨d, hd, hdist⟩
    rw [met_nextLayer]
    rcases hd.lt_or_eq with hlt | rfl
    · exact .inl ((h.met_iff p).mpr ⟨d, Nat.le_of_lt_succ hlt, hdist⟩)
    · exact .inr ((mem_nextLayer digraph met layer p).mp ((hnext p).mpr hdist)).1

/-- The layers from a frontier on. -/
theorem Frontier.mem_layersFrom_iff (h : digraph.Frontier start distance met layer)
    (count index : Nat) (p : Fin n) :
    (∃ found, (digraph.layersFrom count met layer)[index]? = some found ∧ p ∈ found) ↔
      index < count ∧ IsDistance digraph.HasArrow start p (distance + 1 + index) := by
  -- Each round goes on from the next frontier, so the distance and the frontier are generalized.
  induction count generalizing distance met layer index with
  | zero => simp [layersFrom]
  | succ count ih =>
    have hnext := h.next
    unfold layersFrom
    split
    · next met' heq =>
      rw [heq] at hnext
      -- No place is at the next distance, so none is farther away.
      constructor
      · rintro ⟨found, hf, -⟩
        cases hf
      · rintro ⟨-, hdist⟩
        obtain ⟨q, hq⟩ := hdist.exists_of_le (Nat.le_add_right (distance + 1) index)
        exact absurd ((hnext.mem_layer q).mpr hq) List.not_mem_nil
    · next met' next _ heq =>
      rw [heq] at hnext
      cases index with
      | zero => simp [hnext.mem_layer]
      | succ index =>
        rw [List.getElem?_cons_succ, ih hnext, Nat.succ_lt_succ_iff]
        rw [show distance + 1 + (index + 1) = distance + 1 + 1 + index by omega]

/-- **The places of a layer are those at its distance.** -/
theorem mem_layers_iff (digraph : Digraph n) (count index : Nat) (start p : Fin n) :
    (∃ found, (digraph.layers count start)[index]? = some found ∧ p ∈ found) ↔
      index < count ∧ IsDistance digraph.HasArrow start p (index + 1) := by
  unfold layers
  rw [(Frontier.initial digraph start).mem_layersFrom_iff, Nat.zero_add, Nat.add_comm 1]

/-- The numbers of the layers are the distances, up to the number of layers. -/
theorem mem_numberedLayers_iff (digraph : Digraph n) (count : Nat) (start p : Fin n) (d : Nat) :
    (p, d) ∈ digraph.numberedLayers count start ↔
      0 < d ∧ d ≤ count ∧ IsDistance digraph.HasArrow start p d := by
  have hlayer := mem_layers_iff digraph count (d - 1) start p
  unfold numberedLayers
  rw [List.mem_flatMap]
  constructor
  · rintro ⟨⟨layer, index⟩, hlay, hm⟩
    obtain ⟨q, hq, he⟩ := List.mem_map.mp hm
    obtain ⟨rfl, rfl⟩ := Prod.mk.inj he
    obtain ⟨hpos, hget⟩ := List.mk_mem_zipIdx_iff_le_and_getElem?_sub.mp hlay
    obtain ⟨hlt, hdist⟩ := hlayer.mp ⟨layer, hget, hq⟩
    rw [Nat.sub_add_cancel hpos] at hdist
    exact ⟨hpos, by omega, hdist⟩
  · rintro ⟨hpos, hle, hdist⟩
    rw [← Nat.sub_add_cancel hpos] at hdist
    obtain ⟨layer, hget, hp⟩ := hlayer.mpr ⟨by omega, hdist⟩
    exact ⟨(layer, d), List.mk_mem_zipIdx_iff_le_and_getElem?_sub.mpr ⟨hpos, hget⟩,
      List.mem_map_of_mem hp⟩

end ImportAtlas.Digraph
