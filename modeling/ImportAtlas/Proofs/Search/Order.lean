import ImportAtlas.Proofs.DepthFirst
import ImportAtlas.Proofs.Search.Run

/-!
# The order of a search

The search numbers the places as the recursive depth-first search lists them. At any time the places
numbered so far, followed by those that the recursive search lists from what waits in the frames,
are the same list: a step either passes over a successor that has a number already, or moves one
place from the second part to the first. When nothing waits, the second part is empty.

The stack holds open places in the order of their numbers, and a component comes off it as a whole.
So the members of a component are in that order too, and it is filed under the number of its first
member, by which the components are sorted in the end.

## Main definitions

* `Search.ahead`: the places that wait in the frames
* `Search.Follows`: what it means that places have been numbered in turn
* `Search.Arranged`: what it means that a component is in order
* `Digraph.discovery`: the places in the order of the recursive search
* `InOrderOf`: components that are in order, and listed in order

## Main results

* `Follows.step`, `Follows.run`: the numbers follow the recursive search
* `Invariant.arranged_step`: a step keeps the components in order
* `Digraph.components_inOrderOf`: the components are in the order of the recursive search
-/

namespace ImportAtlas

namespace Search

variable {n : Nat} {digraph : Digraph n} {search after : Search n} {order : List (Fin n)}
  {place : Fin n}

/-! ## Places are numbered in turn -/

/-- The places that wait in the frames, those of the innermost frame first. -/
def ahead (search : Search n) : List (Fin n) := search.frames.flatMap Frame.rest

/-- The places that are not in a list. -/
def missing (order : List (Fin n)) : List (Fin n) := without (List.finRange n) order

@[simp] theorem mem_missing : place ∈ missing order ↔ place ∉ order := by
  simp [missing]

theorem without_missing (more : List (Fin n)) :
    without (missing order) more = missing (order ++ more) :=
  without_without ..

/-- The places of a list have been numbered in turn, and no others. -/
structure Follows (search : Search n) (order : List (Fin n)) : Prop where
  number_iff : ∀ {place k}, search.number.get place = some k ↔ order[k]? = some place
  next_eq : search.next = order.length

theorem Follows.start : (start : Search n).Follows [] where
  number_iff := by simp
  next_eq := rfl

theorem Follows.seen_iff (h : search.Follows order) : search.Seen place ↔ place ∈ order := by
  rw [Seen, Option.isSome_iff_exists, List.mem_iff_getElem?]
  exact exists_congr fun k => h.number_iff

/-- The number of a place is its position. -/
theorem Follows.rank_eq (h : search.Follows order) (hd : order.Nodup) (hs : search.Seen place) :
    search.rank place = order.idxOf place := by
  obtain ⟨hlt, hget⟩ := List.getElem?_eq_some_iff.mp
    (h.number_iff.mp (number_eq_some_iff.mpr ⟨hs, rfl⟩))
  rw [← hd.idxOf_getElem _ hlt, hget]

theorem Follows.discover (h : search.Follows order) (hn : ¬search.Seen place) :
    (search.discover digraph place).Follows (order ++ [place]) where
  number_iff := by
    intro other k
    rw [number_discover]
    split
    -- The new place has the number after all others.
    · next he =>
      subst he
      rw [Option.some.injEq, h.next_eq, List.getElem?_append]
      split
      · next hlt =>
        have hnot : order[k]? ≠ some place := fun hk =>
          hn (h.seen_iff.mpr (List.mem_iff_getElem?.mpr ⟨k, hk⟩))
        simp [hnot, hlt.ne']
      · next hge =>
        rw [List.getElem?_singleton]
        split <;> simp <;> omega
    · next hne =>
      rw [h.number_iff, List.getElem?_append]
      split
      · rfl
      · next hge =>
        have hout : order[k]? = none := List.getElem?_eq_none (Nat.le_of_not_lt hge)
        rw [hout, List.getElem?_singleton]
        split <;> simp [hne]
  next_eq := by simp [h.next_eq]

theorem next_leave (digraph : Digraph n) (search : Search n) (place : Fin n) :
    (search.leave digraph place).next = search.next := by
  unfold Search.leave
  cases search.frames <;> simp only <;> split <;> rfl

/-- **A step moves on in the order of the recursive search**: it numbers the next place, or
none. -/
theorem Follows.step (h : search.Follows order) (hs : search.step digraph = some after) :
    ∃ found, after.Follows (order ++ found) ∧
      depthFirst digraph.successors (missing order) search.ahead =
        found ++ depthFirst digraph.successors (missing (order ++ found)) after.ahead := by
  unfold Search.step at hs
  split at hs
  · cases hs
  · next frames hf =>
    cases hs
    -- The frame of a place that is left holds nothing more.
    refine ⟨[], ⟨?_, ?_⟩, ?_⟩
    · intro other k
      rw [number_leave, List.append_nil]
      exact h.number_iff
    · rw [next_leave, List.append_nil]
      exact h.next_eq
    · simp [ahead, frames_leave, hf]
  · next frames hf =>
    cases hs
    rename_i place successor rest
    have hahead : search.ahead = successor :: (rest ++ frames.flatMap Frame.rest) := by
      simp [ahead, hf]
    unfold Search.look
    split
    · next hnone =>
      have hn : ¬search.Seen successor := not_seen_iff.mpr hnone
      have hmem : successor ∈ missing order := mem_missing.mpr (mt h.seen_iff.mpr hn)
      have hpopped : Follows { search with frames := ⟨place, rest⟩ :: frames } order :=
        ⟨h.number_iff, h.next_eq⟩
      refine ⟨[successor], hpopped.discover hn, ?_⟩
      rw [hahead, depthFirst_cons_of_mem hmem, without_missing]
      simp [ahead]
    · next number hsome =>
      have hseen : search.Seen successor := (number_eq_some_iff.mp hsome).1
      have hmem : successor ∉ missing order := fun hm => mem_missing.mp hm (h.seen_iff.mp hseen)
      refine ⟨[], ?_, ?_⟩
      · rw [List.append_nil]
        split <;> exact ⟨h.number_iff, h.next_eq⟩
      · rw [hahead, depthFirst_cons_of_not_mem hmem, List.append_nil, List.nil_append]
        split <;> simp [ahead]

/-- **A run numbers what the recursive search lists.** -/
theorem Follows.run (h : search.Follows order) :
    (run digraph search).Follows
      (order ++ depthFirst digraph.successors (missing order) search.ahead) := by
  fun_induction Search.run digraph search generalizing order with
  | case1 search hs =>
    have hnil : search.ahead = [] := by simp [ahead, frames_eq_nil_of_step hs]
    rw [hnil, depthFirst_nil, List.append_nil]
    exact h
  | case2 search after hs ih =>
    obtain ⟨found, hfollows, heq⟩ := h.step hs
    rw [heq, ← List.append_assoc]
    exact ih hfollows

theorem Follows.runFrom (h : search.Follows order) (hf : search.frames = []) (root : Fin n) :
    (search.runFrom digraph root).Follows
      (order ++ depthFirst digraph.successors (missing order) [root]) := by
  unfold Search.runFrom
  split
  · next hs =>
    have hmem : root ∉ missing order := fun hm => mem_missing.mp hm (h.seen_iff.mp hs)
    rw [depthFirst_cons_of_not_mem hmem, depthFirst_nil, List.append_nil]
    exact h
  · next hn =>
    have hmem : root ∈ missing order := mem_missing.mpr (mt h.seen_iff.mpr hn)
    have hroot : (search.discover digraph root).Follows (order ++ [root]) := h.discover hn
    have hrun : (Search.run digraph (search.discover digraph root)).Follows _ := hroot.run
    have hahead : (search.discover digraph root).ahead = digraph.successors root ++ [] := by
      simp [ahead, hf]
    rw [hahead, ← without_missing, List.append_assoc, List.singleton_append,
      ← depthFirst_cons_of_mem hmem] at hrun
    exact hrun

theorem Follows.foldl (h : search.Follows order) (hr : Resting digraph search)
    (roots : List (Fin n)) :
    (roots.foldl (Search.runFrom digraph) search).Follows
      (order ++ depthFirst digraph.successors (missing order) roots) := by
  induction roots generalizing search order with
  | nil => simpa using h
  | cons root roots ih =>
    have hrest := ih (h.runFrom hr.frames_eq root) (hr.runFrom root)
    rw [List.append_assoc, ← without_missing, ← depthFirst_append] at hrest
    exact hrest

variable (digraph) in
/-- The search through a digraph numbers all places in the order of the recursive search. -/
theorem follows_through :
    (through digraph).Follows
      (depthFirst digraph.successors (List.finRange n) (List.finRange n)) := by
  have hresting : Resting digraph start := ⟨.start, rfl⟩
  have h := Follows.start.foldl hresting (List.finRange n)
  have hall : missing ([] : List (Fin n)) = List.finRange n := by simp [missing, without]
  rw [hall] at h
  exact h

/-! ## Components come off the stack in order -/

variable {component : Component n}

/-- The members of a component stand in the order of their numbers, and it is filed under the number
of the first. -/
structure Arranged (search : Search n) (component : Component n) : Prop where
  sorted : component.members.Pairwise fun a b => search.rank a < search.rank b
  exists_head : ∃ first, component.members.head? = some first ∧
    search.rank first = component.first

theorem Arranged.of_rank_eq (h : search.Arranged component)
    (hr : ∀ p ∈ component.members, after.rank p = search.rank p) : after.Arranged component where
  sorted := h.sorted.imp_of_mem fun ha hb hlt => by rwa [hr _ ha, hr _ hb]
  exists_head := by
    obtain ⟨first, hhead, hrank⟩ := h.exists_head
    exact ⟨first, hhead, by rw [hr first (List.mem_of_head? hhead), hrank]⟩

/-- A step changes no number. -/
theorem rank_step (hs : search.step digraph = some after) (hp : search.Seen place) :
    after.rank place = search.rank place := by
  unfold Search.step at hs
  split at hs
  · cases hs
  · cases hs
    simp [rank, number_leave]
  · cases hs
    unfold Search.look
    split
    · next hnone => exact rank_discover (not_seen_iff.mpr hnone) hp
    · split <;> rfl

section Leave

variable {outer : List (Frame n)}

theorem rank_pass : (search.pass place outer).rank = search.rank := by
  cases outer <;> rfl

theorem found_pass : (search.pass place outer).found = search.found := by
  cases outer <;> rfl

/-- The open places from a settled one upwards, taken from below, are in the order of their
numbers. -/
theorem Settled.arranged (h : Settled digraph search place outer) {above below : List (Fin n)}
    (hs : search.stack = above ++ place :: below) :
    search.Arranged ⟨search.lowLink.get place, (above ++ [place]).reverse⟩ where
  sorted := by
    have hsorted := h.invariant.stacked.sorted
    rw [hs, List.append_cons, List.pairwise_append] at hsorted
    exact List.pairwise_reverse.mpr hsorted.1
  exists_head := ⟨place, by simp, h.low_eq.symm⟩

/-- Leaving a place adds no component but one in order. -/
theorem Invariant.arranged_leave (h : Invariant digraph search)
    (hf : search.frames = ⟨place, []⟩ :: outer)
    (hc : component ∈ (Search.leave digraph { search with frames := outer } place).found) :
    component ∈ search.found ∨ search.Arranged component := by
  have hpass := h.pass hf
  rw [leave_eq] at hc
  split at hc
  · next heq =>
    have hset : Settled digraph (search.pass place outer) place outer :=
      ⟨hpass, frames_pass hf, (number_eq_some_iff.mp heq).2.symm⟩
    obtain ⟨above, below, hs, habove, -⟩ := hpass.stacked.exists_split hset.mem_stack
    rw [Settled.found_close _ hs habove, found_pass] at hc
    split at hc
    · rcases List.mem_cons.mp hc with rfl | hc
      · exact .inr ((hset.arranged hs).of_rank_eq fun p _ => by rw [rank_pass])
      · exact .inl hc
    · exact .inl hc
  · exact .inl (found_pass ▸ hc)

end Leave

theorem found_look (digraph : Digraph n) (search : Search n) (place successor : Fin n) :
    (search.look digraph place successor).found = search.found := by
  unfold Search.look
  split
  · rfl
  · split <;> rfl

/-- **A step keeps the components in order.** -/
theorem Invariant.arranged_step (h : Invariant digraph search)
    (ha : ∀ component ∈ search.found, search.Arranged component)
    (hs : search.step digraph = some after) :
    ∀ component ∈ after.found, after.Arranged component := by
  -- The members of an earlier component have numbers, which stay.
  have hkept : ∀ component ∈ search.found, after.Arranged component := fun component hc =>
    (ha component hc).of_rank_eq fun p hp =>
      rank_step hs (h.records.closed component hc p hp).1
  unfold Search.step at hs
  split at hs
  · cases hs
  · next hf =>
    cases hs
    intro component hc
    rcases h.arranged_leave hf hc with hc | harranged
    · exact hkept component hc
    · exact harranged.of_rank_eq fun p _ => by simp [rank, number_leave]
  · cases hs
    intro component hc
    rw [found_look] at hc
    exact hkept component hc

theorem Invariant.arranged_run (h : Invariant digraph search)
    (ha : ∀ component ∈ search.found, search.Arranged component) :
    ∀ component ∈ (Search.run digraph search).found,
      (Search.run digraph search).Arranged component := by
  fun_induction Search.run digraph search with
  | case1 search hs => exact ha
  | case2 search after hs ih => exact ih (h.step hs) (h.arranged_step ha hs)

theorem Resting.arranged_runFrom (h : Resting digraph search)
    (ha : ∀ component ∈ search.found, search.Arranged component) (root : Fin n) :
    ∀ component ∈ (search.runFrom digraph root).found,
      (search.runFrom digraph root).Arranged component := by
  unfold Search.runFrom
  split
  · exact ha
  · next hn =>
    have hnil : search.exploring = [] := by simp [exploring, h.frames_eq]
    refine (h.invariant.discover hn fun active hhead => by simp [hnil] at hhead).arranged_run ?_
    intro component hc
    exact (ha component hc).of_rank_eq fun p hp =>
      rank_discover hn (h.invariant.records.closed component hc p hp).1

variable (digraph) in
theorem arranged_through :
    ∀ component ∈ (through digraph).found, (through digraph).Arranged component := by
  suffices h : ∀ (roots : List (Fin n)) (search : Search n), Resting digraph search →
      (∀ component ∈ search.found, search.Arranged component) →
      ∀ component ∈ (roots.foldl (Search.runFrom digraph) search).found,
        (roots.foldl (Search.runFrom digraph) search).Arranged component from
    h (List.finRange n) Search.start ⟨.start, rfl⟩ (by simp [Search.start])
  intro roots
  induction roots with
  | nil => exact fun search _ ha => ha
  | cons root roots ih =>
    exact fun search hr ha => ih _ (hr.runFrom root) (hr.arranged_runFrom ha root)

end Search

/-! ## Components in order -/

/-- Components that are in order: the members of each stand in the order of a list, the first of
them before the others, and the components stand in the order of their first members. -/
structure InOrderOf {α : Type} [DecidableEq α] (order : List α) (components : List (List α)) :
    Prop where
  mem_order : ∀ members ∈ components, ∀ a ∈ members, a ∈ order
  members_sorted : ∀ members ∈ components,
    members.Pairwise fun a b => order.idxOf a < order.idxOf b
  exists_first : ∀ members ∈ components, ∃ first, members.head? = some first ∧
    ∀ a ∈ members, order.idxOf first ≤ order.idxOf a
  heads_sorted : components.Pairwise fun earlier later =>
    ∀ a ∈ earlier.head?, ∀ b ∈ later.head?, order.idxOf a < order.idxOf b

section Map

variable {α β : Type} [DecidableEq α] [DecidableEq β] {f : α → β}

theorem idxOf_map (hf : Function.Injective f) (order : List α) (a : α) :
    (order.map f).idxOf (f a) = order.idxOf a := by
  induction order with
  | nil => rfl
  | cons b order ih =>
    by_cases h : b = a
    · subst h
      rw [List.map_cons, List.idxOf_cons_self, List.idxOf_cons_self]
    · rw [List.map_cons, List.idxOf_cons_ne _ (hf.ne h), List.idxOf_cons_ne _ h, ih]

theorem InOrderOf.map (hf : Function.Injective f) {order : List α} {components : List (List α)}
    (h : InOrderOf order components) :
    InOrderOf (order.map f) (components.map (List.map f)) where
  mem_order := by
    rw [List.forall_mem_map]
    intro members hm
    rw [List.forall_mem_map]
    exact fun a ha => List.mem_map_of_mem (h.mem_order members hm a ha)
  members_sorted := by
    rw [List.forall_mem_map]
    intro members hm
    simp only [List.pairwise_map, idxOf_map hf]
    exact h.members_sorted members hm
  exists_first := by
    rw [List.forall_mem_map]
    intro members hm
    obtain ⟨first, hhead, hfirst⟩ := h.exists_first members hm
    refine ⟨f first, by rw [List.head?_map, hhead, Option.map_some], ?_⟩
    rw [List.forall_mem_map]
    simp only [idxOf_map hf]
    exact hfirst
  heads_sorted := by
    rw [List.pairwise_map]
    refine h.heads_sorted.imp fun {earlier later} hlt a' ha' b' hb' => ?_
    rw [List.head?_map, Option.mem_def, Option.map_eq_some_iff] at ha' hb'
    obtain ⟨a, ha, rfl⟩ := ha'
    obtain ⟨b, hb, rfl⟩ := hb'
    rw [idxOf_map hf, idxOf_map hf]
    exact hlt a ha b hb

end Map

namespace Digraph

variable {n : Nat} (digraph : Digraph n)

/-- The places in the order in which the recursive search discovers them. -/
def discovery : List (Fin n) :=
  depthFirst digraph.successors (List.finRange n) (List.finRange n)

theorem discovery_perm : digraph.discovery.Perm (List.finRange n) :=
  depthFirst_perm (List.nodup_finRange n)

/-- After the search the number of a place is its position in the order of discovery. -/
theorem rank_through (place : Fin n) :
    (Search.through digraph).rank place = digraph.discovery.idxOf place :=
  (Search.follows_through digraph).rank_eq (nodup_depthFirst _ _)
    (Search.closed_through digraph place).1

/-- The components as they are sorted in the end: by the numbers of their first members, which are
all different. -/
theorem pairwise_first_lt :
    ((Search.through digraph).found.mergeSort (·.first ≤ ·.first)).Pairwise
      fun earlier later => earlier.first < later.first := by
  have hinv := (Search.resting_through digraph).invariant
  have hle : ((Search.through digraph).found.mergeSort (·.first ≤ ·.first)).Pairwise
      fun earlier later => decide (earlier.first ≤ later.first) = true :=
    List.pairwise_mergeSort
      (fun a b c hab hbc => by simp only [decide_eq_true_eq] at *; omega)
      (fun a b => by simp only [Bool.or_eq_true, decide_eq_true_eq]; omega) _
  have hdisjoint := ((List.mergeSort_perm (Search.through digraph).found
    (·.first ≤ ·.first)).pairwise_iff fun h => List.disjoint_symm h).mpr hinv.records.disjoint
  refine (hle.and hdisjoint).imp_of_mem fun {earlier later} he hl h => ?_
  obtain ⟨a, ha, hra⟩ := (Search.arranged_through digraph _ (List.mem_mergeSort.mp he)).exists_head
  obtain ⟨b, hb, hrb⟩ := (Search.arranged_through digraph _ (List.mem_mergeSort.mp hl)).exists_head
  refine lt_of_le_of_ne (of_decide_eq_true h.1) fun heq => ?_
  -- Components filed under the same number would share their first member.
  have hab : a = b := hinv.numbered.eq_of_rank_eq (Search.closed_through digraph a).1
    (Search.closed_through digraph b).1 (by rw [hra, hrb, heq])
  exact h.2 (List.mem_of_head? ha) (hab ▸ List.mem_of_head? hb)

/-- **The components are in the order of the recursive search.** -/
theorem components_inOrderOf : InOrderOf digraph.discovery digraph.components where
  mem_order := fun _ _ a _ => digraph.discovery_perm.mem_iff.mpr (List.mem_finRange a)
  members_sorted := by
    rw [components, List.forall_mem_map]
    simp only [← digraph.rank_through]
    exact fun component hc =>
      (Search.arranged_through digraph component (List.mem_mergeSort.mp hc)).sorted
  exists_first := by
    rw [components, List.forall_mem_map]
    simp only [← digraph.rank_through]
    intro component hc
    have harr := Search.arranged_through digraph component (List.mem_mergeSort.mp hc)
    -- The members are sorted by rank, so the head has the least one.
    obtain ⟨first, hhead, -⟩ := harr.exists_head
    obtain ⟨rest, hmembers⟩ := List.head?_eq_some_iff.mp hhead
    have hsorted := harr.sorted
    rw [hmembers] at hsorted
    refine ⟨first, hhead, fun a ha => ?_⟩
    rcases List.mem_cons.mp (hmembers ▸ ha) with rfl | ha
    · exact le_rfl
    · exact ((List.pairwise_cons.mp hsorted).1 a ha).le
  heads_sorted := by
    rw [components, List.pairwise_map]
    simp only [← digraph.rank_through]
    refine digraph.pairwise_first_lt.imp_of_mem fun {earlier later} he hl hlt a ha b hb => ?_
    obtain ⟨a', ha', hra⟩ :=
      (Search.arranged_through digraph _ (List.mem_mergeSort.mp he)).exists_head
    obtain ⟨b', hb', hrb⟩ :=
      (Search.arranged_through digraph _ (List.mem_mergeSort.mp hl)).exists_head
    obtain rfl := Option.some.inj (ha'.symm.trans ha)
    obtain rfl := Option.some.inj (hb'.symm.trans hb)
    rw [hra, hrb]
    exact hlt

end Digraph

end ImportAtlas
