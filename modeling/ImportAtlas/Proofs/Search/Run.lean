import ImportAtlas.Proofs.Search.Complete

/-!
# Runs of a search

Each step of a search is one or two of the operations that keep the invariant, so the invariant
holds along a run. A run ends with no place being explored, hence with no place open, and the
search through a whole digraph discovers every place. Every component is complete then, and the
components found are the cycles among all of them.

## Main results

* `Invariant.step`: a step keeps the invariant
* `Invariant.run`: a run keeps it, and ends with no frame left
* `closed_through`: after the search through a digraph all places are closed
* `isCycle_of_mem_components`, `exists_mem_components`, `disjoint_components`: the components listed
  are the cycles, each once
-/

namespace ImportAtlas

namespace Search

variable {n : Nat} {digraph : Digraph n} {search after : Search n} {place : Fin n}

/-! ## Leaving a place -/

/-- The state once the innermost place being explored has passed its low link to the place that it
was discovered from; its frame is still there. -/
def pass (search : Search n) (place : Fin n) (outer : List (Frame n)) : Search n :=
  match outer with
  | [] => search
  | frame :: _ => search.lower frame.place (search.lowLink.get place)

theorem leave_eq (outer : List (Frame n)) :
    leave digraph { search with frames := outer } place =
      if (search.pass place outer).number.get place =
          some ((search.pass place outer).lowLink.get place) then
        close digraph (search.pass place outer) place outer
          ((search.pass place outer).lowLink.get place)
      else { search.pass place outer with frames := outer } := by
  cases outer <;> rfl

section Leave

variable {outer : List (Frame n)} (h : Invariant digraph search)
  (hf : search.frames = ⟨place, []⟩ :: outer)

include hf

theorem frames_pass : (search.pass place outer).frames = ⟨place, []⟩ :: outer := by
  cases outer <;> exact hf

include h

theorem Invariant.pass : Invariant digraph (search.pass place outer) := by
  cases outer with
  | nil => exact h
  | cons frame outer =>
    have hp : place ∈ search.stack := h.explores.mem_stack (by simp [exploring_drop hf])
    obtain ⟨reached, hs, he, hr⟩ := h.linked.exists_reached hp
    have hchain := h.explores.chain
    rw [exploring_drop hf] at hchain
    have harrow : digraph.HasArrow frame.place place := (List.isChain_cons.mp hchain).1 _ rfl
    -- The parent reaches what the place reaches.
    exact h.lower hs he (.head harrow hr)

theorem Invariant.lowLink_pass_le (parent : Fin n)
    (hp : (exploring { search with frames := outer }).head? = some parent) :
    (search.pass place outer).lowLink.get parent ≤
      (search.pass place outer).lowLink.get place := by
  cases outer with
  | nil => cases hp
  | cons frame outer =>
    obtain rfl : frame.place = parent := Option.some.inj hp
    -- Lowering the low link of the parent leaves that of the place as it is.
    have hne : frame.place ≠ place := fun he =>
      lt_irrefl _ (he ▸ h.rank_lt_of_outer hf (by simp [exploring]))
    refine (lowLink_lower_self_le _).trans ?_
    rw [Search.pass, lowLink_lower, if_neg hne]

theorem Invariant.leave : Invariant digraph (leave digraph { search with frames := outer } place) := by
  have hinv := h.pass hf
  have hframes := frames_pass hf
  have hp : place ∈ (search.pass place outer).stack :=
    hinv.explores.mem_stack (by simp [exploring_drop hframes])
  rw [leave_eq]
  split
  · next heq =>
    have hlow := (number_eq_some_iff.mp heq).2.symm
    exact Settled.close ⟨hinv, hframes, hlow⟩ _
  · next hne =>
    refine hinv.drop hframes (lt_of_le_of_ne (hinv.linked.le_rank hp) fun heq => hne ?_)
      (h.lowLink_pass_le hf)
    exact number_eq_some_iff.mpr ⟨hinv.stacked.seen hp, heq.symm⟩

end Leave

/-! ## Looking at a successor -/

section Look

variable {successor : Fin n} {rest : List (Fin n)} {outer : List (Frame n)}
  (h : Invariant digraph search) (hf : search.frames = ⟨place, successor :: rest⟩ :: outer)

include h hf

theorem Invariant.hasArrow_of_frame : digraph.HasArrow place successor := by
  have hsuffix := h.explores.rest_suffix ⟨place, successor :: rest⟩ (by simp [hf])
  exact hsuffix.subset List.mem_cons_self

theorem Invariant.look :
    Invariant digraph
      (look digraph { search with frames := ⟨place, rest⟩ :: outer } place successor) := by
  have harrow := h.hasArrow_of_frame hf
  have hexp : search.exploring = place :: outer.map Frame.place := by simp [exploring, hf]
  have hm : place ∈ search.exploring := by simp [hexp]
  have hp := h.explores.mem_stack hm
  unfold Search.look
  split
  · next hnone =>
    have hn : ¬search.Seen successor := not_seen_iff.mpr hnone
    have hd : Invariant digraph (search.discover digraph successor) :=
      h.discover hn fun active ha => by
        obtain rfl : place = active := by simpa [hexp] using ha
        exact harrow
    -- The new place is explored first; the successor is used up below its frame.
    refine hd.advance [⟨successor, digraph.successors successor⟩] (by simp [hf])
      (seen_discover.mpr (.inl rfl)) fun _ => ⟨successor, by simp, ?_, by simp⟩
    rw [rank_discover_self, rank_discover hn (h.stacked.seen hp)]
    exact (h.numbered.rank_lt_next (h.stacked.seen hp)).le
  · next number hsome =>
    obtain ⟨hseen, hrank⟩ := number_eq_some_iff.mp hsome
    split
    -- An open successor shows in the low link of the place, one that is closed need not show.
    · next hon =>
      have hs := (h.stacked.onStack_iff successor).mp hon
      have hl := h.lower hs hrank (.single harrow)
      exact hl.advance [] hf hseen fun _ =>
        ⟨place, hm, le_rfl, (lowLink_lower_self_le _).trans hrank.ge⟩
    · next hon =>
      exact h.advance [] hf hseen fun hs =>
        absurd ((h.stacked.onStack_iff successor).mpr hs) hon

end Look

/-! ## Steps and runs -/

/-- **A step keeps the invariant.** -/
theorem Invariant.step (h : Invariant digraph search) (hs : search.step digraph = some after) :
    Invariant digraph after := by
  unfold Search.step at hs
  split at hs
  · cases hs
  · next hf =>
    cases hs
    exact h.leave hf
  · next hf =>
    cases hs
    exact h.look hf

/-- A step forgets no number. -/
theorem Seen.step (h : search.Seen place) (hs : search.step digraph = some after) :
    after.Seen place := by
  unfold Search.step at hs
  split at hs
  · cases hs
  · cases hs
    unfold Seen
    rwa [number_leave]
  · cases hs
    unfold Search.look
    split
    · exact seen_discover.mpr (.inr h)
    · split <;> exact h

theorem frames_eq_nil_of_step (hs : search.step digraph = none) : search.frames = [] := by
  unfold Search.step at hs
  split at hs
  · assumption
  · cases hs
  · cases hs

/-- **A run keeps the invariant.** -/
theorem Invariant.run (h : Invariant digraph search) : Invariant digraph (run digraph search) := by
  fun_induction Search.run digraph search with
  | case1 search hs => exact h
  | case2 search after hs ih => exact ih (h.step hs)

theorem Seen.run (h : search.Seen place) : (run digraph search).Seen place := by
  fun_induction Search.run digraph search with
  | case1 search hs => exact h
  | case2 search after hs ih => exact ih (h.step hs)

theorem frames_run : (run digraph search).frames = [] := by
  fun_induction Search.run digraph search with
  | case1 search hs => exact frames_eq_nil_of_step hs
  | case2 search after hs ih => exact ih

/-! ## The search through a digraph -/

/-- A search between two runs: no place is being explored. -/
structure Resting (digraph : Digraph n) (search : Search n) : Prop where
  invariant : Invariant digraph search
  frames_eq : search.frames = []

theorem Resting.runFrom (h : Resting digraph search) (root : Fin n) :
    Resting digraph (search.runFrom digraph root) := by
  unfold Search.runFrom
  split
  · exact h
  · next hn =>
    have hnil : search.exploring = [] := by simp [exploring, h.frames_eq]
    exact ⟨(h.invariant.discover hn fun active ha => by simp [hnil] at ha).run, frames_run⟩

theorem seen_runFrom (root : Fin n) : (search.runFrom digraph root).Seen root := by
  unfold Search.runFrom
  split
  · assumption
  · exact Seen.run (seen_discover.mpr (.inl rfl))

theorem Seen.runFrom (h : search.Seen place) (root : Fin n) :
    (search.runFrom digraph root).Seen place := by
  unfold Search.runFrom
  split
  · exact h
  · exact Seen.run (seen_discover.mpr (.inr h))

theorem Resting.foldl (h : Resting digraph search) (roots : List (Fin n)) :
    Resting digraph (roots.foldl (Search.runFrom digraph) search) ∧
      ∀ p, search.Seen p ∨ p ∈ roots → (roots.foldl (Search.runFrom digraph) search).Seen p := by
  induction roots generalizing search with
  | nil => exact ⟨h, fun p hp => hp.resolve_right (List.not_mem_nil)⟩
  | cons root roots ih =>
    obtain ⟨hr, hseen⟩ := ih (h.runFrom root)
    refine ⟨hr, fun p hp => hseen p ?_⟩
    rcases hp with hp | hp
    · exact .inl (hp.runFrom root)
    · rcases List.mem_cons.mp hp with rfl | hp
      · exact .inl (seen_runFrom p)
      · exact .inr hp

variable (digraph) in
theorem resting_through : Resting digraph (through digraph) :=
  (Resting.foldl ⟨.start, rfl⟩ _).1

variable (digraph) in
/-- After the search through a digraph every component is complete. -/
theorem closed_through (p : Fin n) : (through digraph).Closed p := by
  have h := resting_through digraph
  have hnil : (through digraph).stack = [] :=
    h.invariant.stack_eq_nil (by simp [exploring, h.frames_eq])
  refine ⟨(Resting.foldl ⟨.start, rfl⟩ _).2 p (.inr (List.mem_finRange p)), ?_⟩
  rw [hnil]
  exact List.not_mem_nil

end Search

namespace Digraph

variable {n : Nat} (digraph : Digraph n)

theorem components_perm :
    digraph.components.Perm ((Search.through digraph).found.map Component.members) :=
  (List.mergeSort_perm _ _).map _

/-- **The components listed are the cycles.** -/
theorem isCycle_of_mem_components {members : List (Fin n)} (h : members ∈ digraph.components) :
    digraph.IsCycle members := by
  obtain ⟨component, hc, rfl⟩ := List.mem_map.mp (digraph.components_perm.mem_iff.mp h)
  exact (Search.resting_through digraph).invariant.records.isCycle component hc

theorem exists_mem_components {place : Fin n} (h : digraph.OnCycle place) :
    ∃ members ∈ digraph.components, place ∈ members := by
  obtain ⟨component, hc, hp⟩ := (Search.resting_through digraph).invariant.records.exists_found
    (Search.closed_through digraph place) h
  exact ⟨component.members, digraph.components_perm.mem_iff.mpr (List.mem_map_of_mem hc), hp⟩

/-- No place is listed in two components. -/
theorem disjoint_components : digraph.components.Pairwise List.Disjoint := by
  refine (digraph.components_perm.pairwise_iff fun h => List.disjoint_symm h).mpr ?_
  exact List.pairwise_map.mpr (Search.resting_through digraph).invariant.records.disjoint

end Digraph

end ImportAtlas
