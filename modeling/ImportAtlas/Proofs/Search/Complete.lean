import ImportAtlas.Proofs.Search.Invariant

/-!
# Completing a component

A place whose successors are used up and whose low link is its own number is the first place of
its component: the open places from it upwards are exactly the places connected with it. Taking
them off the stack keeps the invariant.

## Main definitions

* `Settled`: a search about to complete a component
* `close`: the state once it has

## Main results

* `Settled.mem_top_iff`: the open places from the first place of a component upwards are that
  component
* `Settled.close`: completing the component keeps the invariant
-/

namespace ImportAtlas.Search

variable {n : Nat} {digraph : Digraph n} {search : Search n} {place : Fin n}

/-- The state once the component of the innermost place being explored is complete and the frame
of the place is gone. -/
def close (digraph : Digraph n) (search : Search n) (place : Fin n) (outer : List (Frame n))
    (first : Nat) : Search n :=
  complete digraph { search with frames := outer } place first

/-- A closed place reaches closed places only. -/
theorem Looks.closed_of_reaches (h : search.Looks digraph) {a b : Fin n} (ha : search.Closed a)
    (hr : digraph.Reaches a b) : search.Closed b := by
  induction hr with
  | refl => exact ha
  | tail _ harrow ih => exact h.closed ih harrow

/-- The stack at an open place: larger numbers above it, smaller ones below. -/
theorem Stacked.exists_split (h : search.Stacked) (hp : place ∈ search.stack) :
    ∃ above below, search.stack = above ++ place :: below ∧
      (∀ p ∈ above, search.rank place < search.rank p) ∧
      ∀ p ∈ below, search.rank p < search.rank place := by
  obtain ⟨above, below, hs⟩ := List.append_of_mem hp
  have hsorted := h.sorted
  rw [hs, List.pairwise_append, List.pairwise_cons] at hsorted
  exact ⟨above, below, hs, fun p hm => hsorted.2.2 p hm place (by simp), hsorted.2.1.1⟩

/-- A search about to complete the component of a place: the place is the innermost one being
explored, its successors are used up, and its low link is its own number. -/
structure Settled (digraph : Digraph n) (search : Search n) (place : Fin n)
    (outer : List (Frame n)) : Prop where
  invariant : Invariant digraph search
  frames_eq : search.frames = ⟨place, []⟩ :: outer
  low_eq : search.lowLink.get place = search.rank place

namespace Settled

variable {outer : List (Frame n)} (h : Settled digraph search place outer)

include h

theorem mem_exploring : place ∈ search.exploring := by
  simp [exploring_drop h.frames_eq]

theorem mem_stack : place ∈ search.stack :=
  h.invariant.explores.mem_stack h.mem_exploring

/-- No place being explored has a larger number. -/
theorem rank_le {active : Fin n} (ha : active ∈ search.exploring) :
    search.rank active ≤ search.rank place := by
  rw [exploring_drop h.frames_eq, List.mem_cons] at ha
  rcases ha with rfl | ha
  · exact le_rfl
  · exact (h.invariant.rank_lt_of_outer h.frames_eq ha).le

theorem eq_of_exploring {active : Fin n} (ha : active ∈ search.exploring)
    (hle : search.rank place ≤ search.rank active) : active = place :=
  have hst := h.invariant.stacked
  h.invariant.numbered.eq_of_rank_eq (hst.seen (h.invariant.explores.mem_stack ha))
    (hst.seen h.mem_stack) ((h.rank_le ha).antisymm hle)

/-- All arrows of the open places from the settled one upwards have been looked at. -/
theorem looked {tail head : Fin n} (ht : tail ∈ search.stack)
    (hle : search.rank place ≤ search.rank tail) (harrow : digraph.HasArrow tail head) :
    search.Looked digraph tail head := by
  refine looked_of_forall_frame harrow (h.invariant.stacked.seen ht) fun frame hm hp => ?_
  -- A frame of the tail is that of the settled place, which is used up.
  have ha : tail ∈ search.exploring := hp ▸ List.mem_map_of_mem hm
  obtain rfl := h.eq_of_exploring ha hle
  rw [h.frames_eq] at hm
  rcases List.mem_cons.mp hm with rfl | hm
  · rfl
  · have houter : frame.place ∈ exploring { search with frames := outer } := List.mem_map_of_mem hm
    have hlt := h.invariant.rank_lt_of_outer h.frames_eq houter
    exact absurd (hp ▸ hlt) (lt_irrefl _)

/-- No arrow leads from the open places from the settled one upwards to those below it. -/
theorem arrow_top {tail head : Fin n} (ht : tail ∈ search.stack)
    (hle : search.rank place ≤ search.rank tail) (harrow : digraph.HasArrow tail head) :
    head ∈ search.stack ∧ search.rank place ≤ search.rank head ∨ search.Closed head := by
  have hl := h.looked ht hle harrow
  by_cases hm : head ∈ search.stack
  · obtain ⟨inner, hi, hrank, hlow⟩ :=
      h.invariant.looks.exists_low_le h.mem_exploring ht hm hle hl
    -- The head shows in a low link from the settled place upwards, hence in that of the place
    -- itself.
    rw [h.eq_of_exploring hi hrank, h.low_eq] at hlow
    exact .inl ⟨hm, hlow⟩
  · exact .inr ⟨h.invariant.looks.seen hl, hm⟩

theorem reaches_top {a b : Fin n} (ha : a ∈ search.stack)
    (hle : search.rank place ≤ search.rank a) (hr : digraph.Reaches a b) :
    b ∈ search.stack ∧ search.rank place ≤ search.rank b ∨ search.Closed b := by
  induction hr with
  | refl => exact .inl ⟨ha, hle⟩
  | tail _ harrow ih =>
    rcases ih with ⟨hm, hl⟩ | hc
    · exact h.arrow_top hm hl harrow
    · exact .inr (h.invariant.looks.closed hc harrow)

/-- Low links lead every open place above the settled one back to it. -/
theorem reaches_settled {a : Fin n} (ha : a ∈ search.stack)
    (hle : search.rank place ≤ search.rank a) : digraph.Reaches a place := by
  induction hr : search.rank a using Nat.strong_induction_on generalizing a with
  | _ rank ih =>
    have hst := h.invariant.stacked
    -- Each low link leads to a smaller number, and never below the settled place.
    by_cases he : a = place
    · exact he ▸ .refl
    · have hex : a ∉ search.exploring := fun hm => he (h.eq_of_exploring hm hle)
      obtain ⟨b, hb, hrank, hreach⟩ := h.invariant.linked.exists_reached ha
      have hlt : search.rank b < rank := by
        rw [hrank, ← hr]
        exact h.invariant.linked.lt_rank ha hex
      rcases h.reaches_top ha hle hreach with ⟨-, hleb⟩ | hc
      · exact hreach.trans (ih _ hlt hb hleb rfl)
      · exact absurd hb hc.2

/-- **The open places from the settled one upwards are its component.** -/
theorem mem_top_iff {p : Fin n} :
    p ∈ search.stack ∧ search.rank place ≤ search.rank p ↔ digraph.Connected place p := by
  constructor
  · rintro ⟨hp, hle⟩
    exact ⟨h.invariant.explores.reaches h.mem_exploring hp hle, h.reaches_settled hp hle⟩
  · rintro ⟨hto, hback⟩
    refine (h.reaches_top h.mem_stack le_rfl hto).resolve_right fun hc => ?_
    -- A closed place does not reach the settled one, which is open.
    exact (h.invariant.looks.closed_of_reaches hc hback).2 h.mem_stack

/-! ## The stack without the component -/

section Split

variable {above below : List (Fin n)} (first : Nat)
  (hs : search.stack = above ++ place :: below)
  (habove : ∀ p ∈ above, search.rank place < search.rank p)
  (hbelow : ∀ p ∈ below, search.rank p < search.rank place)

include hs habove hbelow

omit h hbelow in
theorem stack_close : (close digraph search place outer first).stack = below :=
  stack_complete { search with frames := outer } hs
    fun hp => lt_irrefl _ (habove place hp)

omit h hbelow in
theorem onStack_close {p : Fin n} : (close digraph search place outer first).onStack.get p =
    (!(above ++ [place]).contains p && search.onStack.get p) :=
  onStack_complete { search with frames := outer } hs
    fun hp => lt_irrefl _ (habove place hp)

omit h hbelow in
theorem found_close : (close digraph search place outer first).found =
    if 1 < (above ++ [place]).length ∨ digraph.HasArrow place place then
      ⟨first, (above ++ [place]).reverse⟩ :: search.found
    else search.found :=
  found_complete { search with frames := outer } hs
    fun hp => lt_irrefl _ (habove place hp)

theorem mem_above_iff {p : Fin n} :
    p ∈ above ++ [place] ↔ digraph.Connected place p := by
  rw [← h.mem_top_iff, hs, List.mem_append, List.mem_append, List.mem_singleton, List.mem_cons]
  constructor
  · rintro (hp | rfl)
    · exact ⟨.inl hp, (habove p hp).le⟩
    · exact ⟨.inr (.inl rfl), le_rfl⟩
  · rintro ⟨hp | rfl | hp, hle⟩
    · exact .inl hp
    · exact .inr rfl
    · exact absurd (hbelow p hp) hle.not_gt

theorem mem_below_iff {p : Fin n} :
    p ∈ below ↔ p ∈ search.stack ∧ search.rank p < search.rank place := by
  rw [hs, List.mem_append, List.mem_cons]
  constructor
  · exact fun hp => ⟨.inr (.inr hp), hbelow p hp⟩
  · rintro ⟨hp | rfl | hp, hlt⟩
    · exact absurd (habove p hp) hlt.asymm
    · exact absurd hlt (lt_irrefl _)
    · exact hp

/-- The condition for noting the component is that it is a cycle. -/
theorem length_or_loop_iff :
    1 < (above ++ [place]).length ∨ digraph.HasArrow place place ↔ digraph.OnCycle place := by
  have hmem := fun p => h.mem_above_iff hs habove hbelow (p := p)
  refine or_congr_left ?_
  constructor
  · intro hl
    obtain ⟨p, hp⟩ := List.exists_mem_of_ne_nil above (by rintro rfl; simp at hl)
    exact ⟨p, fun he => (habove p hp).ne (he ▸ rfl), (hmem p).mp (by simp [hp])⟩
  · rintro ⟨p, hne, hc⟩
    have hp := (hmem p).mpr hc
    rw [List.mem_append, List.mem_singleton] at hp
    have hlen := List.length_pos_of_mem (hp.resolve_right hne)
    simpa using hlen

theorem closed_close {p : Fin n} :
    (close digraph search place outer first).Closed p ↔
      search.Closed p ∨ digraph.Connected place p := by
  rw [← h.mem_top_iff]
  unfold Closed
  rw [stack_close first hs habove, h.mem_below_iff hs habove hbelow, not_and, not_lt]
  change search.Seen p ∧ _ ↔ _
  constructor
  · rintro ⟨hseen, himp⟩
    by_cases hp : p ∈ search.stack
    · exact .inr ⟨hp, himp hp⟩
    · exact .inl ⟨hseen, hp⟩
  · rintro (⟨hseen, hp⟩ | ⟨hp, hle⟩)
    · exact ⟨hseen, fun hp' => absurd hp' hp⟩
    · exact ⟨h.invariant.stacked.seen hp, fun _ => hle⟩

theorem stacked_close :
    (close digraph search place outer first).Stacked := by
  have hst := h.invariant.stacked
  have hstack : (close digraph search place outer first).stack = below := stack_close first hs habove
  have hsub : below.Sublist search.stack := by
    rw [hs]
    exact (List.sublist_cons_self place below).trans (List.sublist_append_right _ _)
  refine ⟨fun p => ?_, fun hp => hst.seen (hsub.mem (hstack ▸ hp)), ?_⟩
  · have hon := hst.onStack_iff p
    rw [onStack_close first hs habove, hstack, h.mem_below_iff hs habove hbelow, Bool.and_eq_true]
    change _ ∧ search.onStack.get p = true ↔ _
    rw [hon, and_comm, Bool.not_eq_true', List.contains_eq_mem, decide_eq_false_iff_not,
      h.mem_above_iff hs habove hbelow, ← h.mem_top_iff]
    exact and_congr_right fun hp => by simp [hp]
  · rw [hstack]
    exact hst.sorted.sublist hsub

theorem explores_close :
    (close digraph search place outer first).Explores digraph := by
  have hex := Explores.drop h.frames_eq h.invariant
  have hstack : (close digraph search place outer first).stack = below := stack_close first hs habove
  have hmem := fun p => h.mem_below_iff hs habove hbelow (p := p)
  refine ⟨fun {p} hp => ?_, hex.sorted, hex.chain, hex.rest_suffix, fun {active p} ha hp hle => ?_⟩
  · rw [hstack, hmem]
    exact ⟨hex.mem_stack hp, h.invariant.rank_lt_of_outer h.frames_eq hp⟩
  · rw [hstack, hmem] at hp
    exact hex.reaches ha hp.1 hle

theorem linked_close :
    (close digraph search place outer first).Linked digraph := by
  have hlk := h.invariant.linked
  have hstack : (close digraph search place outer first).stack = below := stack_close first hs habove
  have hmem := fun p => h.mem_below_iff hs habove hbelow (p := p)
  refine ⟨fun {p} hp => ?_, fun {p} hp => ?_, fun {p} hp he => ?_⟩ <;>
    rw [hstack, hmem] at hp <;> obtain ⟨hp, hlt⟩ := hp
  · exact hlk.le_rank hp
  · -- The place that the low link stands for has a smaller number, so it stays open.
    obtain ⟨reached, hr, heq, hreach⟩ := hlk.exists_reached hp
    have hle : search.rank reached ≤ search.rank p := heq ▸ hlk.le_rank hp
    exact ⟨reached, by rw [hstack, hmem]; exact ⟨hr, hle.trans_lt hlt⟩, heq, hreach⟩
  · refine hlk.lt_rank hp ?_
    rw [exploring_drop h.frames_eq, List.mem_cons, not_or]
    exact ⟨fun hpp => hlt.ne (hpp ▸ rfl), he⟩

theorem looks_close :
    (close digraph search place outer first).Looks digraph := by
  have hlo := h.invariant.looks
  have hstack : (close digraph search place outer first).stack = below := stack_close first hs habove
  have hmem := fun p => h.mem_below_iff hs habove hbelow (p := p)
  have hclosed := fun p => h.closed_close first hs habove hbelow (p := p)
  have hdrop := exploring_drop h.frames_eq
  refine ⟨fun hl => hlo.seen ((looked_drop h.frames_eq).mp hl),
    fun {active tail head} ha ht hh hle hl => ?_, fun {tail head} hc harrow => ?_⟩
  · rw [hstack, hmem] at ht hh
    obtain ⟨inner, hi, hrank, hlow⟩ := hlo.exists_low_le (hdrop ▸ List.mem_cons_of_mem _ ha)
      ht.1 hh.1 hle ((looked_drop h.frames_eq).mp hl)
    rw [hdrop, List.mem_cons] at hi
    rcases hi with rfl | hi
    -- The settled place shows no head below it, its low link being its own number.
    · rw [h.low_eq] at hlow
      exact absurd hh.2 hlow.not_gt
    · exact ⟨inner, hi, hrank, hlow⟩
  · rw [hclosed] at hc ⊢
    rcases hc with hc | hc
    · exact .inl (hlo.closed hc harrow)
    · rw [← h.mem_top_iff] at hc ⊢
      exact (h.arrow_top hc.1 hc.2 harrow).symm

theorem records_close :
    (close digraph search place outer first).Records digraph := by
  have hre := h.invariant.records
  have hmem := fun p => h.mem_above_iff hs habove hbelow (p := p)
  have hclosed := fun p => h.closed_close first hs habove hbelow (p := p)
  have hiff := h.length_or_loop_iff hs habove hbelow
  have hnodup : (above ++ [place]).Nodup := by
    have hsorted := h.invariant.stacked.sorted
    rw [hs, List.append_cons, List.pairwise_append] at hsorted
    exact hsorted.1.imp fun hlt => ne_of_apply_ne search.rank hlt.ne'
  have hold : ∀ component ∈ search.found, ∀ p ∈ component.members,
      (close digraph search place outer first).Closed p :=
    fun component hc p hp => (hclosed p).mpr (.inl (hre.closed component hc p hp))
  have hfound : (close digraph search place outer first).found = _ := found_close first hs habove
  by_cases hcyc : digraph.OnCycle place
  · rw [if_pos (hiff.mpr hcyc)] at hfound
    refine ⟨?_, ?_, fun {p} hc ho => ?_, ?_⟩ <;> rw [hfound]
    · refine List.forall_mem_cons.mpr ⟨fun p hp => ?_, hold⟩
      exact (hclosed p).mpr (.inr ((hmem p).mp (List.mem_reverse.mp hp)))
    · refine List.forall_mem_cons.mpr ⟨⟨(List.reverse_perm _).nodup_iff.mpr hnodup, place, hcyc, ?_⟩,
        hre.isCycle⟩
      exact fun p => List.mem_reverse.trans (hmem p)
    · rcases (hclosed p).mp hc with hc | hc
      · obtain ⟨component, hcm, hp⟩ := hre.exists_found hc ho
        exact ⟨component, List.mem_cons_of_mem _ hcm, hp⟩
      · exact ⟨_, List.mem_cons_self, List.mem_reverse.mpr ((hmem p).mpr hc)⟩
    · refine List.pairwise_cons.mpr ⟨fun component hc p hp hp' => ?_, hre.disjoint⟩
      -- The members of the new component were open, those of the others are closed.
      refine (hre.closed component hc p hp').2 ?_
      exact (h.mem_top_iff.mpr ((hmem p).mp (List.mem_reverse.mp hp))).1
  · rw [if_neg (mt hiff.mp hcyc)] at hfound
    refine ⟨?_, ?_, fun {p} hc ho => ?_, ?_⟩ <;> rw [hfound]
    · exact hold
    · exact hre.isCycle
    · rcases (hclosed p).mp hc with hc | hc
      · exact hre.exists_found hc ho
      · exact absurd (ho.of_connected hc) hcyc
    · exact hre.disjoint

end Split

/-- **Completing the component of a settled place keeps the invariant.** -/
theorem close (first : Nat) :
    Invariant digraph (close digraph search place outer first) := by
  obtain ⟨above, below, hs, habove, hbelow⟩ := h.invariant.stacked.exists_split h.mem_stack
  exact ⟨⟨h.invariant.numbered.1, h.invariant.numbered.2⟩, h.stacked_close first hs habove hbelow,
    h.explores_close first hs habove hbelow, h.linked_close first hs habove hbelow,
    h.looks_close first hs habove hbelow, h.records_close first hs habove hbelow⟩

end Settled

end ImportAtlas.Search
