import ImportAtlas.Proofs.Search.State

/-!
# The invariant of a search

What holds before every step of a search. The numbers increase along the stack, and the places
being explored are a path through it. From a place being explored every open place above it is
reached. The low link of an open place is the number of an open place that it reaches, and is less
than its own number once its exploration is over. An arrow that has been looked at and leads to an
open place shows in the low link of a place being explored. No arrow leads from a closed place to
one that is not closed.

The invariant is a conjunction of six parts, and each operation on the state is shown to keep the
parts that it touches. The operations here leave the stack of open places as it is or add to it;
the one that takes a component off it has a module of its own.

## Main definitions

* `Invariant`: the invariant, with its parts `Numbered`, `Stacked`, `Explores`, `Linked`,
  `Looks` and `Records`

## Main results

* `Invariant.lower`, `Invariant.advance`, `Invariant.discover`, `Invariant.drop`: the operations
  keep the invariant
* `Invariant.stack_eq_nil`: no place is open if none is being explored
-/

namespace ImportAtlas.Search

variable {n : Nat}

section Parts

variable (digraph : Digraph n) (search : Search n)

/-- Numbers have been given in turn. -/
structure Numbered : Prop where
  rank_lt_next : ∀ {place}, search.Seen place → search.rank place < search.next
  eq_of_rank_eq : ∀ {a b}, search.Seen a → search.Seen b → search.rank a = search.rank b → a = b

/-- The open places lie on the stack in the order of their numbers. -/
structure Stacked : Prop where
  onStack_iff : ∀ place, search.onStack.get place = true ↔ place ∈ search.stack
  seen : ∀ {place}, place ∈ search.stack → search.Seen place
  sorted : search.stack.Pairwise fun later earlier => search.rank earlier < search.rank later

/-- The places being explored are a path of open places, from each of which every open place above
it is reached. -/
structure Explores : Prop where
  mem_stack : ∀ {place}, place ∈ search.exploring → place ∈ search.stack
  sorted : search.exploring.Pairwise fun inner outer => search.rank outer < search.rank inner
  chain : search.exploring.IsChain fun inner outer => digraph.HasArrow outer inner
  rest_suffix : ∀ frame ∈ search.frames, frame.rest <:+ digraph.successors frame.place
  reaches : ∀ {active place}, active ∈ search.exploring → place ∈ search.stack →
    search.rank active ≤ search.rank place → digraph.Reaches active place

/-- The low link of an open place is the number of an open place that it reaches. -/
structure Linked : Prop where
  le_rank : ∀ {place}, place ∈ search.stack → search.lowLink.get place ≤ search.rank place
  exists_reached : ∀ {place}, place ∈ search.stack → ∃ reached ∈ search.stack,
    search.rank reached = search.lowLink.get place ∧ digraph.Reaches place reached
  lt_rank : ∀ {place}, place ∈ search.stack → place ∉ search.exploring →
    search.lowLink.get place < search.rank place

/-- What has been looked at has been taken into account. -/
structure Looks : Prop where
  seen : ∀ {tail head}, search.Looked digraph tail head → search.Seen head
  exists_low_le : ∀ {active tail head}, active ∈ search.exploring → tail ∈ search.stack →
    head ∈ search.stack → search.rank active ≤ search.rank tail →
    search.Looked digraph tail head →
    ∃ inner ∈ search.exploring, search.rank active ≤ search.rank inner ∧
      search.lowLink.get inner ≤ search.rank head
  closed : ∀ {tail head}, search.Closed tail → digraph.HasArrow tail head → search.Closed head

/-- The cycles among the components that are complete have been found, each once. -/
structure Records : Prop where
  closed : ∀ component ∈ search.found, ∀ place ∈ component.members, search.Closed place
  isCycle : ∀ component ∈ search.found, digraph.IsCycle component.members
  exists_found : ∀ {place}, search.Closed place → digraph.OnCycle place →
    ∃ component ∈ search.found, place ∈ component.members
  disjoint : search.found.Pairwise fun a b => a.members.Disjoint b.members

/-- **The invariant of a search.** -/
structure Invariant : Prop where
  numbered : search.Numbered
  stacked : search.Stacked
  explores : search.Explores digraph
  linked : search.Linked digraph
  looks : search.Looks digraph
  records : search.Records digraph

end Parts

variable {digraph : Digraph n} {search : Search n} {place : Fin n}

theorem Invariant.start : Invariant digraph start where
  numbered := by
    constructor <;> simp [not_seen_start]
  stacked := by
    refine ⟨fun p => ?_, ?_, .nil⟩ <;> simp
  explores := by
    refine ⟨?_, .nil, .nil, ?_, ?_⟩ <;> simp
  linked := by
    constructor <;> simp
  looks := by
    constructor <;> simp [Looked, Closed, not_seen_start]
  records := by
    refine ⟨?_, ?_, ?_, .nil⟩ <;> simp [Closed, not_seen_start]

/-- Below each open place there is one being explored: low links lead down to it. -/
theorem Linked.exists_exploring (h : search.Linked digraph) (hp : place ∈ search.stack) :
    ∃ active ∈ search.exploring, search.rank active ≤ search.rank place := by
  induction hr : search.rank place using Nat.strong_induction_on generalizing place with
  | _ rank ih =>
    -- A place that is not being explored has a low link below its own number, so the number goes
    -- down.
    by_cases hm : place ∈ search.exploring
    · exact ⟨place, hm, hr.le⟩
    · obtain ⟨reached, hs, he, -⟩ := h.exists_reached hp
      have hlt : search.rank reached < rank := by
        rw [he, ← hr]
        exact h.lt_rank hp hm
      obtain ⟨active, ha, hle⟩ := ih _ hlt hs rfl
      exact ⟨active, ha, hle.trans hlt.le⟩

theorem Invariant.stack_eq_nil (h : Invariant digraph search) (hf : search.exploring = []) :
    search.stack = [] := by
  refine List.eq_nil_iff_forall_not_mem.mpr fun place hp => ?_
  obtain ⟨active, ha, -⟩ := h.linked.exists_exploring hp
  rw [hf] at ha
  cases ha

/-! ## Lowering a low link -/

/-- A low link may be lowered to the number of any open place that is reached. -/
theorem Invariant.lower (h : Invariant digraph search) {reached : Fin n} {bound : Nat}
    (hs : reached ∈ search.stack) (hb : search.rank reached = bound)
    (hr : digraph.Reaches place reached) : Invariant digraph (search.lower place bound) where
  numbered := ⟨h.numbered.1, h.numbered.2⟩
  stacked := ⟨h.stacked.1, h.stacked.2, h.stacked.3⟩
  explores := ⟨h.explores.1, h.explores.2, h.explores.3, h.explores.4, h.explores.5⟩
  linked := by
    refine ⟨fun hp => (lowLink_lower_le bound).trans (h.linked.le_rank hp), fun {p} hp => ?_,
      fun hp he => (lowLink_lower_le bound).trans_lt (h.linked.lt_rank hp he)⟩
    rw [lowLink_lower]
    split
    -- The new low link is the number of the old place or of the one that was given.
    · next hpp =>
      subst hpp
      obtain ⟨old, ho, heq, hreach⟩ := h.linked.exists_reached hp
      rw [Nat.min_def]
      split
      · exact ⟨old, ho, heq, hreach⟩
      · exact ⟨reached, hs, hb, hr⟩
    · exact h.linked.exists_reached hp
  looks := by
    refine ⟨h.looks.seen, fun ha ht hh hle hl => ?_, h.looks.closed⟩
    obtain ⟨inner, hi, hrank, hlow⟩ := h.looks.exists_low_le ha ht hh hle hl
    exact ⟨inner, hi, hrank, (lowLink_lower_le bound).trans hlow⟩
  records := ⟨h.records.1, h.records.2, h.records.3, h.records.4⟩

/-! ## Using up a successor -/

section Advance

variable {inner outer : List (Frame n)} {successor : Fin n} {rest : List (Fin n)}

theorem exploring_advance (hf : search.frames = inner ++ ⟨place, successor :: rest⟩ :: outer) :
    exploring { search with frames := inner ++ ⟨place, rest⟩ :: outer } = search.exploring := by
  simp [exploring, hf]

theorem looked_advance (hf : search.frames = inner ++ ⟨place, successor :: rest⟩ :: outer)
    {tail head : Fin n}
    (hl : Looked { search with frames := inner ++ ⟨place, rest⟩ :: outer } digraph tail head) :
    search.Looked digraph tail head ∨ tail = place ∧ head = successor := by
  obtain ⟨ha, hs, hw⟩ := hl
  -- The frames are as before, but that the one of the place no longer holds the successor.
  by_cases he : tail = place ∧ head = successor
  · exact .inr he
  · refine .inl ⟨ha, hs, fun frame hm hp => ?_⟩
    rw [hf] at hm
    rcases List.mem_append.mp hm with hm | hm
    · exact hw frame (by simp [hm]) hp
    · rcases List.mem_cons.mp hm with rfl | hm
      · have hrest := hw ⟨place, rest⟩ (by simp) hp
        exact fun hh => (List.mem_cons.mp hh).elim (fun e => he ⟨hp.symm, e⟩) hrest
      · exact hw frame (by simp [hm]) hp

/-- A successor may be used up once it has been discovered and, if it is open, shows in the low
link of a place being explored. -/
theorem Invariant.advance (h : Invariant digraph search) (inner : List (Frame n))
    (hf : search.frames = inner ++ ⟨place, successor :: rest⟩ :: outer)
    (hseen : search.Seen successor)
    (hlow : successor ∈ search.stack → ∃ active ∈ search.exploring,
      search.rank place ≤ search.rank active ∧
        search.lowLink.get active ≤ search.rank successor) :
    Invariant digraph { search with frames := inner ++ ⟨place, rest⟩ :: outer } := by
  have he := exploring_advance hf
  have hex := h.explores
  have hlk := h.linked
  refine ⟨⟨h.numbered.1, h.numbered.2⟩, ⟨h.stacked.1, h.stacked.2, h.stacked.3⟩, ?_, ?_, ?_,
    ⟨h.records.1, h.records.2, h.records.3, h.records.4⟩⟩
  · refine ⟨fun hm => hex.mem_stack (he ▸ hm), he ▸ hex.sorted, he ▸ hex.chain,
      fun frame hm => ?_, fun hm => hex.reaches (he ▸ hm)⟩
    have hold := hex.rest_suffix
    rw [hf] at hold
    rcases List.mem_append.mp hm with hm | hm
    · exact hold frame (by simp [hm])
    · rcases List.mem_cons.mp hm with rfl | hm
      · exact (List.suffix_cons successor rest).trans (hold ⟨place, successor :: rest⟩ (by simp))
      · exact hold frame (by simp [hm])
  · exact ⟨hlk.le_rank, hlk.exists_reached, fun hp hm => hlk.lt_rank hp (he ▸ hm)⟩
  · refine ⟨fun hl => ?_, fun {active tail head} ha ht hh hle hl => ?_, h.looks.closed⟩
    · rcases looked_advance hf hl with hl | ⟨-, rfl⟩
      · exact h.looks.seen hl
      · exact hseen
    -- The arrow to the successor is the only one that has not been looked at before.
    · rw [he] at ha ⊢
      rcases looked_advance hf hl with hl | ⟨rfl, rfl⟩
      · exact h.looks.exists_low_le ha ht hh hle hl
      · obtain ⟨other, ho, hrank, hlo⟩ := hlow hh
        exact ⟨other, ho, hle.trans hrank, hlo⟩

end Advance

/-! ## Discovering a place -/

/-- A place being explored reaches the innermost one. -/
theorem Invariant.reaches_head (h : Invariant digraph search) {active head : Fin n}
    (ha : active ∈ search.exploring) (hh : search.exploring.head? = some head) :
    digraph.Reaches active head := by
  obtain ⟨outer, ho⟩ := List.head?_eq_some_iff.mp hh
  have hm : head ∈ search.exploring := by simp [ho]
  refine h.explores.reaches ha (h.explores.mem_stack hm) ?_
  have hsorted := h.explores.sorted
  rw [ho] at ha hsorted
  rcases List.mem_cons.mp ha with rfl | ha
  · exact le_rfl
  · exact ((List.pairwise_cons.mp hsorted).1 active ha).le

/-- All arrows of a new place wait in its frame. -/
theorem looked_discover {tail head : Fin n}
    (hl : (search.discover digraph place).Looked digraph tail head) :
    search.Looked digraph tail head ∧ tail ≠ place := by
  obtain ⟨ha, hs, hw⟩ := hl
  have hne : tail ≠ place := fun he =>
    hw ⟨place, digraph.successors place⟩ (by simp) he.symm (he ▸ ha)
  rw [seen_discover] at hs
  exact ⟨⟨ha, hs.resolve_left hne, fun frame hm => hw frame (by simp [hm])⟩, hne⟩

section Discover

variable (hn : ¬search.Seen place)

include hn

theorem ne_of_seen {other : Fin n} (ho : search.Seen other) : other ≠ place :=
  fun he => hn (he ▸ ho)

theorem rank_discover {other : Fin n} (ho : search.Seen other) :
    (search.discover digraph place).rank other = search.rank other :=
  rank_discover_of_ne (ne_of_seen hn ho)

theorem closed_discover {other : Fin n} :
    (search.discover digraph place).Closed other ↔ search.Closed other := by
  unfold Closed
  rw [seen_discover, stack_discover, List.mem_cons, not_or]
  constructor
  · rintro ⟨hs, hne, hm⟩
    exact ⟨hs.resolve_left hne, hm⟩
  · rintro ⟨hs, hm⟩
    exact ⟨.inr hs, ne_of_seen hn hs, hm⟩

variable (h : Invariant digraph search)

include h

theorem Numbered.discover : (search.discover digraph place).Numbered := by
  have hnum := h.numbered
  refine ⟨fun {p} hp => ?_, fun {a b} ha hb hr => ?_⟩
  · rw [next_discover]
    rcases seen_discover.mp hp with rfl | hs
    · simp
    · rw [rank_discover hn hs]
      exact (hnum.rank_lt_next hs).trans (Nat.lt_succ_self _)
  -- The number of the new place is larger than all others.
  · rcases seen_discover.mp ha with rfl | hsa <;> rcases seen_discover.mp hb with rfl | hsb
    · rfl
    · rw [rank_discover_self, rank_discover hn hsb] at hr
      exact absurd hr (hnum.rank_lt_next hsb).ne'
    · rw [rank_discover_self, rank_discover hn hsa] at hr
      exact absurd hr (hnum.rank_lt_next hsa).ne
    · rw [rank_discover hn hsa, rank_discover hn hsb] at hr
      exact hnum.eq_of_rank_eq hsa hsb hr

theorem Stacked.discover : (search.discover digraph place).Stacked := by
  have hst := h.stacked
  refine ⟨fun p => ?_, fun {p} hp => ?_, ?_⟩
  · rw [onStack_discover, stack_discover, List.mem_cons, ← hst.onStack_iff, eq_comm (a := p)]
    split <;> simp [*]
  · rw [seen_discover]
    exact (List.mem_cons.mp hp).imp_right hst.seen
  · rw [stack_discover, List.pairwise_cons]
    constructor
    · intro p hp
      rw [rank_discover_self, rank_discover hn (hst.seen hp)]
      exact h.numbered.rank_lt_next (hst.seen hp)
    · refine hst.sorted.imp_of_mem fun ha hb hlt => ?_
      rwa [rank_discover hn (hst.seen ha), rank_discover hn (hst.seen hb)]

theorem Explores.discover
    (harrow : ∀ active, search.exploring.head? = some active → digraph.HasArrow active place) :
    (search.discover digraph place).Explores digraph := by
  have hex := h.explores
  have hrank : ∀ {p}, p ∈ search.stack →
      (search.discover digraph place).rank p = search.rank p :=
    fun hp => rank_discover hn (h.stacked.seen hp)
  have hlt : ∀ {p}, p ∈ search.stack → search.rank p < search.next :=
    fun hp => h.numbered.rank_lt_next (h.stacked.seen hp)
  refine ⟨fun {p} hp => ?_, ?_, ?_, fun frame hm => ?_, fun {active p} ha hp hle => ?_⟩
  · rw [exploring_discover, List.mem_cons] at hp
    rw [stack_discover, List.mem_cons]
    exact hp.imp_right hex.mem_stack
  · rw [exploring_discover, List.pairwise_cons]
    constructor
    · intro p hp
      rw [rank_discover_self, hrank (hex.mem_stack hp)]
      exact hlt (hex.mem_stack hp)
    · refine hex.sorted.imp_of_mem fun ha hb hab => ?_
      rwa [hrank (hex.mem_stack ha), hrank (hex.mem_stack hb)]
  · rw [exploring_discover, List.isChain_cons]
    exact ⟨harrow, hex.chain⟩
  · rcases List.mem_cons.mp hm with rfl | hm
    · exact List.suffix_refl _
    · exact hex.rest_suffix frame hm
  · rw [exploring_discover, List.mem_cons] at ha
    rw [stack_discover, List.mem_cons] at hp
    rcases ha with rfl | ha
    · rcases hp with rfl | hp
      · exact .refl
      · rw [rank_discover_self, hrank hp] at hle
        exact absurd (hlt hp) hle.not_gt
    · rcases hp with rfl | hp
      -- The new place is a successor of the innermost place being explored.
      · obtain ⟨head, hh⟩ := Option.isSome_iff_exists.mp
          (List.isSome_head?.mpr (List.ne_nil_of_mem ha))
        exact (h.reaches_head ha hh).tail (harrow head hh)
      · rw [hrank hp, hrank (hex.mem_stack ha)] at hle
        exact hex.reaches ha hp hle

theorem Linked.discover : (search.discover digraph place).Linked digraph := by
  have hlk := h.linked
  have hrank : ∀ {p}, p ∈ search.stack →
      (search.discover digraph place).rank p = search.rank p :=
    fun hp => rank_discover hn (h.stacked.seen hp)
  have hlow : ∀ {p}, p ∈ search.stack →
      (search.discover digraph place).lowLink.get p = search.lowLink.get p :=
    fun hp => lowLink_discover_of_ne (ne_of_seen hn (h.stacked.seen hp))
  refine ⟨fun {p} hp => ?_, fun {p} hp => ?_, fun {p} hp hm => ?_⟩ <;>
    rw [stack_discover, List.mem_cons] at hp <;> rcases hp with rfl | hp
  · simp
  · rw [hlow hp, hrank hp]
    exact hlk.le_rank hp
  · exact ⟨p, by simp, by simp, .refl⟩
  · obtain ⟨reached, hs, he, hr⟩ := hlk.exists_reached hp
    exact ⟨reached, by simp [hs], by rw [hrank hs, hlow hp, he], hr⟩
  · exact absurd (by simp) hm
  · rw [exploring_discover, List.mem_cons, not_or] at hm
    rw [hlow hp, hrank hp]
    exact hlk.lt_rank hp hm.2

theorem Looks.discover : (search.discover digraph place).Looks digraph := by
  refine ⟨fun hl => ?_, fun {active tail head} ha ht hh hle hl => ?_, fun hc harrow => ?_⟩
  · exact seen_discover.mpr (.inr (h.looks.seen (looked_discover hl).1))
  · obtain ⟨hl, hne⟩ := looked_discover hl
    have hth : head ≠ place := ne_of_seen hn (h.looks.seen hl)
    rw [stack_discover, List.mem_cons] at ht hh
    replace ht := ht.resolve_left hne
    replace hh := hh.resolve_left hth
    rw [rank_discover hn (h.stacked.seen ht)] at hle
    rw [rank_discover hn (h.stacked.seen hh)]
    rw [exploring_discover, List.mem_cons] at ha
    rcases ha with rfl | ha
    -- No open place had a number as large as that of the new place.
    · rw [rank_discover_self] at hle
      exact absurd (h.numbered.rank_lt_next (h.stacked.seen ht)) hle.not_gt
    · have hs := h.stacked.seen (h.explores.mem_stack ha)
      rw [rank_discover hn hs] at hle
      obtain ⟨inner, hi, hrank, hlow⟩ := h.looks.exists_low_le ha ht hh hle hl
      have hsi := h.stacked.seen (h.explores.mem_stack hi)
      refine ⟨inner, by simp [hi], ?_, ?_⟩
      · rwa [rank_discover hn hs, rank_discover hn hsi]
      · rwa [lowLink_discover_of_ne (ne_of_seen hn hsi)]
  · exact (closed_discover hn).mpr (h.looks.closed ((closed_discover hn).mp hc) harrow)

theorem Records.discover : (search.discover digraph place).Records digraph := by
  refine ⟨fun component hc p hp => ?_, h.records.isCycle, fun hc ho => ?_, h.records.disjoint⟩
  · exact (closed_discover hn).mpr (h.records.closed component hc p hp)
  · exact h.records.exists_found ((closed_discover hn).mp hc) ho

/-- A place that has not been discovered may be, if it is a successor of the innermost place being
explored or if none is being explored. -/
theorem Invariant.discover
    (harrow : ∀ active, search.exploring.head? = some active → digraph.HasArrow active place) :
    Invariant digraph (search.discover digraph place) where
  numbered := Numbered.discover hn h
  stacked := Stacked.discover hn h
  explores := Explores.discover hn h harrow
  linked := Linked.discover hn h
  looks := Looks.discover hn h
  records := Records.discover hn h

end Discover

/-! ## Dropping a frame -/

section Drop

variable {outer : List (Frame n)} (hf : search.frames = ⟨place, []⟩ :: outer)

include hf

theorem exploring_drop :
    search.exploring = place :: exploring { search with frames := outer } := by
  simp [exploring, hf]

theorem looked_drop {tail head : Fin n} :
    Looked { search with frames := outer } digraph tail head ↔
      search.Looked digraph tail head := by
  unfold Looked
  rw [hf, List.forall_mem_cons]
  simp [Seen]

/-- The places being explored further out have smaller numbers. -/
theorem Invariant.rank_lt_of_outer (h : Invariant digraph search) {active : Fin n}
    (ha : active ∈ exploring { search with frames := outer }) :
    search.rank active < search.rank place := by
  have hs := h.explores.sorted
  rw [exploring_drop hf] at hs
  exact (List.pairwise_cons.mp hs).1 active ha

theorem Explores.drop (h : Invariant digraph search) :
    Explores digraph { search with frames := outer } := by
  have hex := h.explores
  have he := exploring_drop hf
  have hsorted := hex.sorted
  have hchain := hex.chain
  rw [he] at hsorted hchain
  refine ⟨fun hm => hex.mem_stack (he ▸ List.mem_cons_of_mem _ hm), hsorted.of_cons,
    hchain.tail, fun frame hm => hex.rest_suffix frame (hf ▸ List.mem_cons_of_mem _ hm),
    fun hm => hex.reaches (he ▸ List.mem_cons_of_mem _ hm)⟩

/-- The frame of a place whose successors are used up may go, if the place is not the first of its
component and has passed its low link on. -/
theorem Invariant.drop (h : Invariant digraph search)
    (hlt : search.lowLink.get place < search.rank place)
    (hpass : ∀ parent, (exploring { search with frames := outer }).head? = some parent →
      search.lowLink.get parent ≤ search.lowLink.get place) :
    Invariant digraph { search with frames := outer } := by
  have he := exploring_drop hf
  refine ⟨⟨h.numbered.1, h.numbered.2⟩, ⟨h.stacked.1, h.stacked.2, h.stacked.3⟩,
    Explores.drop hf h, ⟨h.linked.le_rank, h.linked.exists_reached, fun {p} hp hm => ?_⟩,
    ⟨fun hl => h.looks.seen ((looked_drop hf).mp hl), fun {active tail head} ha ht hh hle hl => ?_,
      h.looks.closed⟩, ⟨h.records.1, h.records.2, h.records.3, h.records.4⟩⟩
  · by_cases hpp : p = place
    · exact hpp ▸ hlt
    · exact h.linked.lt_rank hp (by simpa [he, hpp] using hm)
  · obtain ⟨inner, hi, hrank, hlow⟩ := h.looks.exists_low_le
      (he ▸ List.mem_cons_of_mem _ ha) ht hh hle ((looked_drop hf).mp hl)
    rw [he, List.mem_cons] at hi
    rcases hi with rfl | hi
    -- What showed in the low link of the place shows in that of its parent.
    · cases hp : exploring { search with frames := outer } with
      | nil =>
        rw [hp] at ha
        cases ha
      | cons parent others =>
        have hsorted := (Explores.drop hf h).sorted
        rw [hp] at ha hsorted
        refine ⟨parent, by simp, ?_, (hpass parent (by simp [hp])).trans hlow⟩
        rcases List.mem_cons.mp ha with rfl | ha
        · exact le_rfl
        · exact ((List.pairwise_cons.mp hsorted).1 active ha).le
    · exact ⟨inner, hi, hrank, hlow⟩

end Drop

end ImportAtlas.Search
