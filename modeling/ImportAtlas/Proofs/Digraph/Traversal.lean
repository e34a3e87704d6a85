import ImportAtlas.Graph.Dependents
import ImportAtlas.Proofs.Dictionary
import ImportAtlas.Proofs.Digraph.Layers

/-!
# Traversals find shortest distances

At every state of a traversal the queue holds places of two neighbouring levels, the nearer ones
first. Until a place of the nearer level is taken, its successors may not have been met; all places
up to that level have been, and none of the places met has a distance that is too large. So a place
that is met now is one level farther away than the place taken, and no nearer: the distance that it
gets is the least one. A bound stops the traversal at its level, and leaves what has been found by
then as it is.

## Main definitions

* `Traversal.LevelOrder`: the levels of the queue and the distances found so far
* `Traversal.Noted`: the dependents are the places met, by their names
* `Traversal.namedLayers`: the layers around a start, their places by name

## Main results

* `LevelOrder.step`: a step keeps the queue in level order
* `distance_run_iff`: a run finds the distances up to its bound
* `get?_dependents_run_iff`: a run notes them by name
* `dependents_run_eq`: what a run notes are the layers around its start
-/

namespace ImportAtlas.Traversal

variable {n : Nat} {digraph : Digraph n} {name : Fin n → String} {limit : Option Nat}
  {place start : Fin n} {hops level : Nat} {near far places : List (Fin n)}
  {state after : Traversal n}

/-! ## Meeting places -/

theorem distance_start (start p : Fin n) (d : Nat) :
    (Traversal.start start).distance.get p = some d ↔ p = start ∧ d = 0 := by
  unfold Traversal.start
  rw [Row.get_set, Row.get_replicate]
  by_cases he : start = p <;> simp [he, eq_comm]

section Meet

variable (name : Fin n → String) (hops : Nat)

theorem meet_of_isSome (h : (state.distance.get place).isSome) :
    state.meet name hops place = state :=
  if_pos h

theorem meet_of_eq_none (h : state.distance.get place = none) :
    state.meet name hops place =
      { distance := state.distance.set place (some (hops + 1)) place.isLt
        queue := state.queue ++ [place]
        dependents := state.dependents.insert (name place) (hops + 1) } :=
  if_neg (Option.not_isSome_iff_eq_none.mpr h)

theorem distance_meet (place p : Fin n) (d : Nat) :
    (state.meet name hops place).distance.get p = some d ↔
      state.distance.get p = some d ∨
        (state.distance.get p = none ∧ p = place) ∧ d = hops + 1 := by
  cases hplace : state.distance.get place with
  | some old =>
    rw [meet_of_isSome name hops (Option.isSome_of_eq_some hplace)]
    refine (or_iff_left ?_).symm
    rintro ⟨⟨hnone, rfl⟩, -⟩
    rw [hplace] at hnone
    cases hnone
  | none =>
    rw [meet_of_eq_none name hops hplace, Row.get_set]
    by_cases he : place = p
    · subst he
      simp [hplace, eq_comm]
    · simp [he, Ne.symm he]

/-- The successors that have not been met before join the end of the queue, with the next distance.
-/
theorem exists_joining (places : List (Fin n)) (state : Traversal n) :
    ∃ joining, (places.foldl (meet name hops) state).queue = state.queue ++ joining ∧
      (∀ p, p ∈ joining ↔ state.distance.get p = none ∧ p ∈ places) ∧
      ∀ p d, (places.foldl (meet name hops) state).distance.get p = some d ↔
        state.distance.get p = some d ∨ p ∈ joining ∧ d = hops + 1 := by
  induction places generalizing state with
  | nil => exact ⟨[], by simp⟩
  | cons place places ih =>
    obtain ⟨joining, hqueue, hjoining, hdistance⟩ := ih (state.meet name hops place)
    rw [List.foldl_cons]
    cases hplace : state.distance.get place with
    | some old =>
      rw [meet_of_isSome name hops (Option.isSome_of_eq_some hplace)] at hqueue hjoining hdistance ⊢
      refine ⟨joining, hqueue, fun p => ?_, hdistance⟩
      rw [hjoining, List.mem_cons]
      refine and_congr_right fun hnone => (or_iff_right ?_).symm
      rintro rfl
      rw [hplace] at hnone
      cases hnone
    | none =>
      have hnone : ∀ p, (state.meet name hops place).distance.get p = none ↔
          state.distance.get p = none ∧ p ≠ place := by
        intro p
        rw [meet_of_eq_none name hops hplace, Row.get_set]
        by_cases he : place = p <;> simp [he, eq_comm]
      -- The place joins first, and counts as met for those behind it.
      refine ⟨place :: joining, ?_, fun p => ?_, fun p d => ?_⟩
      · rw [hqueue, meet_of_eq_none name hops hplace, List.append_assoc]
        rfl
      · rw [List.mem_cons, List.mem_cons, hjoining, hnone]
        by_cases he : p = place <;> simp [he, hplace]
      · rw [hdistance, distance_meet, List.mem_cons, or_assoc, ← or_and_right]
        refine or_congr_right (and_congr_left' (or_congr_left (and_iff_right_of_imp ?_)))
        rintro rfl
        exact hplace

end Meet

/-! ## The level order of the queue -/

/-- The queue holds places of one level and behind them places of the next one, and the distances
found so far are those that a traversal in this order must have found. -/
structure LevelOrder (digraph : Digraph n) (limit : Option Nat) (start : Fin n) (level : Nat)
    (near far : List (Fin n)) (state : Traversal n) : Prop where
  queue_eq : state.queue = near ++ far
  near_level : ∀ p ∈ near, state.distance.get p = some level
  mem_far_iff : ∀ p, p ∈ far ↔ state.distance.get p = some (level + 1)
  /-- The distances found are shortest, and no two levels behind the nearest place of the queue. -/
  sound : ∀ p d, state.distance.get p = some d →
    IsDistance digraph.HasArrow start p d ∧ d ≤ level + 1
  bounded : ∀ p d, state.distance.get p = some d → ∀ bound ∈ limit, d ≤ bound
  /-- The places up to the level have been met. -/
  met : ∀ p d, IsDistance digraph.HasArrow start p d → d ≤ level → state.distance.get p = some d
  /-- Below the bound, the successors of the places taken from the level have been met. -/
  taken : (∀ bound ∈ limit, level < bound) → ∀ p, state.distance.get p = some level → p ∉ near →
    ∀ q, digraph.HasArrow p q → (state.distance.get q).isSome

namespace LevelOrder

theorem initial (digraph : Digraph n) (limit : Option Nat) (start : Fin n) :
    LevelOrder digraph limit start 0 [start] [] (.start start) where
  queue_eq := rfl
  near_level := by
    intro p hp
    exact (distance_start start p 0).mpr ⟨List.mem_singleton.mp hp, rfl⟩
  mem_far_iff := by
    intro p
    rw [distance_start]
    exact iff_of_false List.not_mem_nil fun h => Nat.one_ne_zero h.2
  sound := by
    intro p d hd
    obtain ⟨rfl, rfl⟩ := (distance_start start p d).mp hd
    exact ⟨isDistance_zero_iff.mpr rfl, Nat.zero_le _⟩
  bounded := by
    intro p d hd bound _
    obtain ⟨rfl, rfl⟩ := (distance_start start p d).mp hd
    exact Nat.zero_le bound
  met := by
    intro p d hdist hle
    obtain rfl := Nat.le_zero.mp hle
    exact (distance_start start p 0).mpr ⟨isDistance_zero_iff.mp hdist, rfl⟩
  taken := by
    intro _ p hp hnear
    exact absurd (List.mem_singleton.mpr ((distance_start start p 0).mp hp).1) hnear

/-- A place at the next level has been met if the whole level has been taken. -/
theorem distance_eq_of_level_taken (h : LevelOrder digraph limit start level [] far state)
    (hlevel : ∀ bound ∈ limit, level < bound)
    (hdist : IsDistance digraph.HasArrow start place (level + 1)) :
    state.distance.get place = some (level + 1) := by
  obtain ⟨⟨p, hp, harrow⟩, -⟩ := isDistance_succ_iff.mp hdist
  have hmet := h.taken hlevel p (h.met p level hp le_rfl) List.not_mem_nil place harrow
  obtain ⟨d, hd⟩ := Option.isSome_iff_exists.mp hmet
  rw [hd, (h.sound place d hd).1.eq hdist]

/-- Once a level has been taken, the next one is the nearest. -/
theorem next_level (h : LevelOrder digraph limit start level [] far state) (hfar : far ≠ []) :
    LevelOrder digraph limit start (level + 1) far [] state := by
  have hlevel : ∀ bound ∈ limit, level < bound := by
    obtain ⟨p, hp⟩ := List.exists_mem_of_ne_nil far hfar
    exact h.bounded p (level + 1) ((h.mem_far_iff p).mp hp)
  have hbeyond : ∀ p d, state.distance.get p = some d → d ≤ level + 1 :=
    fun p d hd => (h.sound p d hd).2
  constructor
  case queue_eq => rw [h.queue_eq, List.nil_append, List.append_nil]
  case near_level => exact fun p hp => (h.mem_far_iff p).mp hp
  case mem_far_iff =>
    intro p
    refine iff_of_false List.not_mem_nil fun hd => ?_
    have hle := hbeyond p _ hd
    omega
  case sound =>
    intro p d hd
    exact ⟨(h.sound p d hd).1, (hbeyond p d hd).trans (Nat.le_succ _)⟩
  case bounded => exact h.bounded
  case met =>
    intro p d hdist hle
    rcases hle.lt_or_eq with hlt | rfl
    · exact h.met p d hdist (Nat.le_of_lt_succ hlt)
    · exact h.distance_eq_of_level_taken hlevel hdist
  case taken =>
    -- No place of the new level has been taken yet.
    intro _ p hp hnot
    exact absurd ((h.mem_far_iff p).mpr hp) hnot

/-- Taking a place at the bound, whose successors are not looked at. -/
theorem skip (h : LevelOrder digraph limit start level (place :: near) far state)
    (hlimit : ∃ bound ∈ limit, bound ≤ level) :
    LevelOrder digraph limit start level near far { state with queue := near ++ far } := by
  obtain ⟨bound, hbound, hle⟩ := hlimit
  constructor
  case queue_eq => rfl
  case near_level => exact fun p hp => h.near_level p (List.mem_cons_of_mem _ hp)
  case mem_far_iff => exact h.mem_far_iff
  case sound => exact h.sound
  case bounded => exact h.bounded
  case met => exact h.met
  case taken => exact fun hlevel => absurd (hlevel bound hbound) hle.not_gt

/-- **Taking a place below the bound.** Those of its successors that have not been met yet are at
the next level: they are no nearer, since all places up to the level have been met. -/
theorem take (name : Fin n → String) (h : LevelOrder digraph limit start level (place :: near) far state)
    (hlevel : ∀ bound ∈ limit, level < bound) :
    ∃ joining, LevelOrder digraph limit start level near (far ++ joining)
      ((digraph.successors place).foldl (meet name level)
        { state with queue := near ++ far }) := by
  have hplace : IsDistance digraph.HasArrow start place level :=
    (h.sound place level (h.near_level place List.mem_cons_self)).1
  obtain ⟨joining, hqueue, hjoining, hdistance⟩ := exists_joining name level
    (digraph.successors place) { state with queue := near ++ far }
  refine ⟨joining, ?_⟩
  constructor
  case queue_eq => rw [hqueue, List.append_assoc]
  case near_level =>
    intro p hp
    exact (hdistance p level).mpr (.inl (h.near_level p (List.mem_cons_of_mem _ hp)))
  case mem_far_iff =>
    intro p
    rw [List.mem_append, h.mem_far_iff, hdistance, and_iff_left rfl]
  case sound =>
    intro p d hd
    rcases (hdistance p d).mp hd with hd | ⟨hp, rfl⟩
    · exact h.sound p d hd
    · -- A place up to the level would have been met, and this one has not been.
      obtain ⟨hnone, hmem⟩ := (hjoining p).mp hp
      refine ⟨isDistance_succ_iff.mpr ⟨⟨place, hplace, hmem⟩, fun j hj hdist => ?_⟩, le_rfl⟩
      exact Option.some_ne_none j ((h.met p j hdist hj).symm.trans hnone)
  case bounded =>
    intro p d hd bound hbound
    rcases (hdistance p d).mp hd with hd | ⟨-, rfl⟩
    · exact h.bounded p d hd bound hbound
    · exact hlevel bound hbound
  case met =>
    intro p d hdist hle
    exact (hdistance p d).mpr (.inl (h.met p d hdist hle))
  case taken =>
    intro _ p hp hnot q harrow
    -- What was met before is met still, and the successors of the place taken now are met.
    have hmet : (state.distance.get q).isSome ∨ q ∈ joining := by
      rcases (hdistance p level).mp hp with hp | ⟨-, hlevel⟩
      · by_cases he : p = place
        · rw [hjoining]
          cases hq : state.distance.get q with
          | some _ => exact .inl rfl
          | none => exact .inr ⟨rfl, he ▸ harrow⟩
        · exact .inl (h.taken hlevel p hp (by simp [he, hnot]) q harrow)
      · omega
    rcases hmet with hq | hq
    · obtain ⟨d, hd⟩ := Option.isSome_iff_exists.mp hq
      exact Option.isSome_of_eq_some ((hdistance q d).mpr (.inl hd))
    · exact Option.isSome_of_eq_some ((hdistance q _).mpr (.inr ⟨hq, rfl⟩))

/-- **A step keeps the queue in level order.** -/
theorem step (h : LevelOrder digraph limit start level near far state)
    (hs : state.step digraph name limit = some after) :
    ∃ level near far, LevelOrder digraph limit start level near far after := by
  -- The first place of the queue is of the nearest level, once that level is not empty.
  obtain ⟨level, place, near, far, h⟩ : ∃ level place near far,
      LevelOrder digraph limit start level (place :: near) far state := by
    cases near with
    | cons place near => exact ⟨level, place, near, far, h⟩
    | nil =>
      cases far with
      | cons place far => exact ⟨level + 1, place, far, [], h.next_level (List.cons_ne_nil _ _)⟩
      | nil =>
        rw [Traversal.step, h.queue_eq] at hs
        cases hs
  rw [Traversal.step, h.queue_eq] at hs
  simp only [List.cons_append, h.near_level place List.mem_cons_self, Option.getD_some] at hs
  split at hs
  · next hlimit =>
    cases hs
    obtain ⟨bound, hbound, hle⟩ := (Option.any_eq_true _ _).mp hlimit
    exact ⟨level, near, far, h.skip ⟨bound, hbound, of_decide_eq_true hle⟩⟩
  · next hlimit =>
    cases hs
    have hlevel : ∀ bound ∈ limit, level < bound := by
      intro bound hbound
      have hfalse := (Option.any_eq_false _ _).mp (Bool.eq_false_iff.mpr hlimit) bound hbound
      simpa using hfalse
    obtain ⟨joining, hafter⟩ := h.take name hlevel
    exact ⟨level, near, far ++ joining, hafter⟩

/-- With an empty queue, all distances up to the bound have been found. -/
theorem distance_iff_of_empty (h : LevelOrder digraph limit start level [] [] state) (p : Fin n)
    (d : Nat) :
    state.distance.get p = some d ↔
      (∀ bound ∈ limit, d ≤ bound) ∧ IsDistance digraph.HasArrow start p d := by
  constructor
  · intro hd
    exact ⟨h.bounded p d hd, (h.sound p d hd).1⟩
  · rintro ⟨hbound, hdist⟩
    rcases Nat.lt_or_ge level d with hlt | hle
    · -- Then there is a place at the next level, and it is in the queue.
      obtain ⟨q, hq⟩ := hdist.exists_of_le hlt
      have hlevel : ∀ bound ∈ limit, level < bound :=
        fun bound hb => hlt.trans_le (hbound bound hb)
      exact absurd ((h.mem_far_iff q).mpr (h.distance_eq_of_level_taken hlevel hq)) List.not_mem_nil
    · exact h.met p d hdist hle

end LevelOrder

theorem queue_eq_nil_of_step (hs : state.step digraph name limit = none) : state.queue = [] := by
  unfold step at hs
  split at hs
  · assumption
  · simp only at hs
    split at hs <;> cases hs

/-- A run keeps the queue in level order, and ends with an empty one. -/
theorem LevelOrder.run (name : Fin n → String)
    (h : LevelOrder digraph limit start level near far state) :
    ∃ level, LevelOrder digraph limit start level [] [] (run digraph name limit state) := by
  fun_induction Traversal.run digraph name limit state generalizing level near far with
  | case1 state hs =>
    have hempty := h.queue_eq.symm.trans (queue_eq_nil_of_step hs)
    obtain ⟨rfl, rfl⟩ := List.append_eq_nil_iff.mp hempty
    exact ⟨level, h⟩
  | case2 state after hs ih =>
    obtain ⟨_, _, _, hafter⟩ := h.step hs
    exact ih hafter

/-- **A run finds the distances from its start up to its bound**, and no others. -/
theorem distance_run_iff (digraph : Digraph n) (name : Fin n → String) (limit : Option Nat)
    (start p : Fin n) (d : Nat) :
    (run digraph name limit (.start start)).distance.get p = some d ↔
      (∀ bound ∈ limit, d ≤ bound) ∧ IsDistance digraph.HasArrow start p d := by
  obtain ⟨_, h⟩ := (LevelOrder.initial digraph limit start).run name
  exact h.distance_iff_of_empty p d

/-! ## The dependents noted -/

/-- The dependents noted are the places met, apart from the start, with their distances. -/
structure Noted (name : Fin n → String) (start : Fin n) (state : Traversal n) : Prop where
  start_met : (state.distance.get start).isSome
  get?_iff : ∀ path hops, state.dependents.get? path = some hops ↔
    ∃ p, name p = path ∧ p ≠ start ∧ state.distance.get p = some hops

namespace Noted

theorem initial (name : Fin n → String) (start : Fin n) : Noted name start (.start start) := by
  refine ⟨Option.isSome_of_eq_some ((distance_start start start 0).mpr ⟨rfl, rfl⟩), ?_⟩
  intro path hops
  constructor
  · intro h
    cases h
  · rintro ⟨p, -, hne, hp⟩
    exact absurd ((distance_start start p hops).mp hp).1 hne

variable (hname : Function.Injective name) (h : Noted name start state)

include hname h

theorem meet (hops : Nat) (place : Fin n) : Noted name start (state.meet name hops place) := by
  cases hplace : state.distance.get place with
  | some _ => rwa [meet_of_isSome name hops (Option.isSome_of_eq_some hplace)]
  | none =>
    have hne : place ≠ start := by
      rintro rfl
      have hmet := h.start_met
      rw [hplace] at hmet
      cases hmet
    constructor
    · obtain ⟨d, hd⟩ := Option.isSome_iff_exists.mp h.start_met
      exact Option.isSome_of_eq_some ((distance_meet name hops place start d).mpr (.inl hd))
    · intro path d
      have hinsert : (state.meet name hops place).dependents.get? path =
          if path = name place then some (hops + 1) else state.dependents.get? path := by
        rw [meet_of_eq_none name hops hplace]
        exact Dictionary.get?_insert _ _ _ _
      rw [hinsert]
      simp only [distance_meet]
      split
      · next hpath =>
        -- The name is that of the place met now, and of no other.
        constructor
        · intro he
          exact ⟨place, hpath.symm, hne, .inr ⟨⟨hplace, rfl⟩, (Option.some.inj he).symm⟩⟩
        · rintro ⟨p, hp, -, hd⟩
          obtain rfl := hname (hp.trans hpath)
          rcases hd with hd | ⟨-, rfl⟩
          · rw [hplace] at hd
            cases hd
          · rfl
      · next hpath =>
        rw [h.get?_iff]
        refine exists_congr fun p => and_congr_right fun hp => and_congr_right' ?_
        refine (or_iff_left ?_).symm
        rintro ⟨⟨-, rfl⟩, -⟩
        exact hpath hp.symm

theorem foldl_meet (hops : Nat) (places : List (Fin n)) :
    Noted name start (places.foldl (Traversal.meet name hops) state) := by
  induction places generalizing state with
  | nil => exact h
  | cons place places ih => exact ih (h.meet hname hops place)

theorem step (hs : state.step digraph name limit = some after) : Noted name start after := by
  unfold Traversal.step at hs
  split at hs
  · cases hs
  · next place queue _ =>
    -- The queue has no part in what is noted.
    have htaken : Noted name start { state with queue } := ⟨h.start_met, h.get?_iff⟩
    simp only at hs
    split at hs
    · cases hs
      exact htaken
    · cases hs
      exact htaken.foldl_meet hname _ _

theorem run : Noted name start (run digraph name limit state) := by
  fun_induction Traversal.run digraph name limit state with
  | case1 state hs => exact h
  | case2 state after hs ih => exact ih (h.step hname hs)

end Noted

/-- **The dependents that a run notes** are the places at a distance up to its bound, by name. -/
theorem get?_dependents_run_iff (digraph : Digraph n) (hname : Function.Injective name)
    (limit : Option Nat) (start : Fin n) (path : String) (hops : Nat) :
    (run digraph name limit (.start start)).dependents.get? path = some hops ↔
      ∃ p, name p = path ∧ p ≠ start ∧ (∀ bound ∈ limit, hops ≤ bound) ∧
        IsDistance digraph.HasArrow start p hops := by
  rw [((Noted.initial name start).run hname).get?_iff]
  simp only [distance_run_iff]

/-! ## The layers around a start -/

/-- Without a bound there are no more distances than places, so their number is a bound. -/
theorem bounded_iff_of_isDistance (limit : Option Nat)
    (hdist : IsDistance digraph.HasArrow start place hops) :
    (∀ bound ∈ limit, hops ≤ bound) ↔ hops ≤ limit.getD n := by
  cases limit with
  | some bound => simp
  | none =>
    have hlt := hdist.lt_card
    rw [Fintype.card_fin] at hlt
    simp [hlt.le]

/-- Nothing but the start is at distance zero. -/
theorem ne_start_iff_of_isDistance (hdist : IsDistance digraph.HasArrow start place hops) :
    place ≠ start ↔ 0 < hops := by
  rw [Nat.pos_iff_ne_zero, not_iff_not]
  constructor
  · rintro rfl
    exact hdist.eq (isDistance_zero_iff.mpr rfl)
  · rintro rfl
    exact isDistance_zero_iff.mp hdist

/-- The layers around a start, their places by name. -/
def namedLayers (digraph : Digraph n) (name : Fin n → String) (count : Nat) (start : Fin n) :
    List (String × Nat) :=
  (digraph.numberedLayers count start).map fun found => (name found.1, found.2)

theorem mem_namedLayers_iff (count : Nat) (path : String) :
    (path, hops) ∈ namedLayers digraph name count start ↔
      ∃ p, name p = path ∧ 0 < hops ∧ hops ≤ count ∧
        IsDistance digraph.HasArrow start p hops := by
  unfold namedLayers
  rw [List.mem_map]
  constructor
  · rintro ⟨⟨p, d⟩, hfound, he⟩
    obtain ⟨rfl, rfl⟩ := Prod.mk.inj he
    exact ⟨p, rfl, (digraph.mem_numberedLayers_iff count start p d).mp hfound⟩
  · rintro ⟨p, rfl, hd⟩
    exact ⟨(p, hops), (digraph.mem_numberedLayers_iff count start p hops).mpr hd, rfl⟩

/-- **A traversal notes the layers around its start**, as many as its bound lets it find. Without a
bound it notes all of them. -/
theorem dependents_run_eq (digraph : Digraph n) (hname : Function.Injective name)
    (limit : Option Nat) (start : Fin n) :
    (run digraph name limit (.start start)).dependents =
      .ofEntries (namedLayers digraph name (limit.getD n) start) := by
  -- A name stands for one place, and a place has one distance.
  have hagree : ∀ path d e, (path, d) ∈ namedLayers digraph name (limit.getD n) start →
      (path, e) ∈ namedLayers digraph name (limit.getD n) start → d = e := by
    intro path d e hd he
    obtain ⟨p, rfl, -, -, hp⟩ := (mem_namedLayers_iff _ path).mp hd
    obtain ⟨q, hq, -, -, hqe⟩ := (mem_namedLayers_iff _ _).mp he
    obtain rfl := hname hq
    exact hp.eq hqe
  apply Dictionary.ext_mem
  rintro ⟨path, hops⟩
  rw [← Dictionary.get?_eq_some_iff, ← Dictionary.get?_eq_some_iff,
    Dictionary.get?_ofEntries_eq_some_iff (hagree path), mem_namedLayers_iff,
    get?_dependents_run_iff digraph hname]
  refine exists_congr fun p => and_congr_right fun _ => ?_
  rw [← and_assoc, ← and_assoc]
  refine and_congr_left fun hdist => ?_
  rw [ne_start_iff_of_isDistance hdist, bounded_iff_of_isDistance limit hdist]

end ImportAtlas.Traversal
