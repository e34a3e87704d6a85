import Mathlib.Data.List.Nodup
import Mathlib.Data.List.Perm.Basic

/-!
# Recursive depth-first search

The plain recursive search explores points one after the other: a point that is still fresh is
listed, its successors are explored before the points that follow it, and whatever has been listed
is fresh no more. A point is thus listed when it is discovered, which is the preorder of the search.

Exploring a list in two parts is exploring it at once, so the successors of a point may as well be
put in front of the points that follow it. This is how a search that keeps the points left to
explore in frames, instead of recursing, comes to list the same points in the same order.

## Main definitions

* `depthFirst`: the fresh points in the order in which exploring some points discovers them

## Main results

* `depthFirst_append`, `depthFirst_cons_of_mem`: exploring points in turn, and the successors of a
  fresh point
* `depthFirst_perm`: exploring all points lists each of them once
* `depthFirst_map`: the order does not depend on what the points are called
-/

namespace ImportAtlas

variable {α β : Type} [DecidableEq α] [DecidableEq β]

/-- The values of a list that are not among others. -/
def without (values others : List α) : List α := values.filter (· ∉ others)

@[simp] theorem mem_without {values others : List α} {a : α} :
    a ∈ without values others ↔ a ∈ values ∧ a ∉ others := by
  simp [without]

theorem without_without (values others more : List α) :
    without (without values others) more = without values (others ++ more) := by
  simp only [without, List.filter_filter]
  refine List.filter_congr fun a _ => ?_
  simp [Bool.and_comm]

theorem without_map {f : α → β} (hf : Function.Injective f) (values others : List α) :
    without (values.map f) (others.map f) = (without values others).map f := by
  simp only [without, List.filter_map]
  congr 1
  refine List.filter_congr fun a _ => ?_
  rw [Function.comp_apply, decide_eq_decide, List.mem_map_of_injective hf]

theorem length_without_lt {values others : List α} {a : α} (ha : a ∈ values) (ho : a ∈ others) :
    (without values others).length < values.length :=
  List.length_filter_lt_length_iff_exists.mpr ⟨a, ha, by simpa using ho⟩

/-- The fresh points that exploring the given points in turn discovers, in preorder. -/
def depthFirst (successors : α → List α) (fresh : List α) : List α → List α
  | [] => []
  | place :: places =>
    if place ∈ fresh then
      let below := depthFirst successors (without fresh [place]) (successors place)
      place :: below ++ depthFirst successors (without fresh (place :: below)) places
    else depthFirst successors fresh places
termination_by places => (fresh.length, places.length)
decreasing_by
  · exact Prod.Lex.left _ _ (length_without_lt ‹_› List.mem_cons_self)
  · exact Prod.Lex.left _ _ (length_without_lt ‹_› List.mem_cons_self)
  · exact Prod.Lex.right _ (Nat.lt_succ_self _)

variable {successors : α → List α} {fresh : List α} {place : α}

@[simp] theorem depthFirst_nil : depthFirst successors fresh [] = [] := by
  rw [depthFirst]

theorem depthFirst_cons_of_not_mem (h : place ∉ fresh) (places : List α) :
    depthFirst successors fresh (place :: places) = depthFirst successors fresh places := by
  rw [depthFirst, if_neg h]

/-- Exploring points in two parts is exploring them at once. -/
theorem depthFirst_append (fresh places others : List α) :
    depthFirst successors fresh (places ++ others) =
      depthFirst successors fresh places ++
        depthFirst successors (without fresh (depthFirst successors fresh places)) others := by
  -- Along the list of points; the points below one of them are listed as a whole.
  induction hl : places.length generalizing fresh places with
  | zero =>
    obtain rfl := List.eq_nil_of_length_eq_zero hl
    simp [without]
  | succ length ih =>
    obtain ⟨place, rest, rfl⟩ := List.exists_cons_of_length_eq_add_one hl
    have hrest : rest.length = length := Nat.succ.inj hl
    by_cases h : place ∈ fresh
    · rw [List.cons_append, depthFirst, if_pos h, depthFirst, if_pos h]
      simp only [List.cons_append, List.append_assoc]
      rw [ih _ rest hrest, without_without, List.cons_append]
    · rw [List.cons_append, depthFirst_cons_of_not_mem h, depthFirst_cons_of_not_mem h]
      exact ih _ rest hrest

/-- The successors of a fresh point are explored before the points that follow it. -/
theorem depthFirst_cons_of_mem (h : place ∈ fresh) (places : List α) :
    depthFirst successors fresh (place :: places) =
      place :: depthFirst successors (without fresh [place]) (successors place ++ places) := by
  rw [depthFirst, if_pos h, depthFirst_append, without_without]
  rfl

/-! ## What is listed -/

theorem mem_fresh_of_mem_depthFirst {places : List α} {a : α}
    (h : a ∈ depthFirst successors fresh places) : a ∈ fresh := by
  fun_induction depthFirst successors fresh places with
  | case1 => cases h
  | case2 fresh place places hp below ihbelow ihrest =>
    rcases List.mem_cons.mp h with rfl | h
    · exact hp
    · rcases List.mem_append.mp h with h | h
      · exact (mem_without.mp (ihbelow h)).1
      · exact (mem_without.mp (ihrest h)).1
  | case3 fresh place places hp ih => exact ih h

theorem mem_depthFirst_of_mem {places : List α} {a : α} (hp : a ∈ places) (hf : a ∈ fresh) :
    a ∈ depthFirst successors fresh places := by
  fun_induction depthFirst successors fresh places with
  | case1 => cases hp
  | case2 fresh place places hplace below ihbelow ihrest =>
    by_cases hm : a ∈ place :: below
    · exact List.mem_append_left _ hm
    · refine List.mem_append_right _ (ihrest ?_ (mem_without.mpr ⟨hf, hm⟩))
      exact (List.mem_cons.mp hp).resolve_left fun he => hm (he ▸ List.mem_cons_self)
  | case3 fresh place places hplace ih =>
    exact ih ((List.mem_cons.mp hp).resolve_left fun he => hplace (he ▸ hf)) hf

/-- Nothing is listed twice. -/
theorem nodup_depthFirst (fresh places : List α) :
    (depthFirst successors fresh places).Nodup := by
  fun_induction depthFirst successors fresh places with
  | case1 => exact .nil
  | case2 fresh place places hp below ihbelow ihrest =>
    have hplace : place ∉ below := fun hm => by
      simpa using mem_fresh_of_mem_depthFirst hm
    refine (List.nodup_cons.mpr ⟨hplace, ihbelow⟩).append ihrest fun a hm hrest => ?_
    exact (mem_without.mp (mem_fresh_of_mem_depthFirst hrest)).2 hm
  | case3 fresh place places hp ih => exact ih

/-- **Exploring all points lists each of them once.** -/
theorem depthFirst_perm {points : List α} (h : points.Nodup) :
    (depthFirst successors points points).Perm points :=
  (List.perm_ext_iff_of_nodup (nodup_depthFirst points points) h).mpr fun _ =>
    ⟨mem_fresh_of_mem_depthFirst, fun hm => mem_depthFirst_of_mem hm hm⟩

/-- **The order does not depend on what the points are called.** -/
theorem depthFirst_map {f : α → β} (hf : Function.Injective f) {renamed : β → List β}
    (hs : ∀ a, renamed (f a) = (successors a).map f) (fresh places : List α) :
    depthFirst renamed (fresh.map f) (places.map f) =
      (depthFirst successors fresh places).map f := by
  fun_induction depthFirst successors fresh places with
  | case1 => simp
  | case2 fresh place places hp below ihbelow ihrest =>
    have hone : without (fresh.map f) [f place] = (without fresh [place]).map f :=
      without_map hf fresh [place]
    have hbelow : without (fresh.map f) (f place :: below.map f) =
        (without fresh (place :: below)).map f := without_map hf fresh (place :: below)
    have hlist : depthFirst successors (without fresh [place]) (successors place) = below := rfl
    rw [List.map_cons, depthFirst, if_pos (List.mem_map_of_mem hp)]
    simp only [hs, hone, ihbelow, hlist, hbelow, ihrest, List.map_append, List.map_cons]
  | case3 fresh place places hp ih =>
    have hnot : f place ∉ fresh.map f := fun hm =>
      hp ((List.mem_map_of_injective hf).mp hm)
    rw [List.map_cons, depthFirst_cons_of_not_mem hnot, ih]

end ImportAtlas
