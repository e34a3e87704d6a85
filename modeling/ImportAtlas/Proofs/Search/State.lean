import ImportAtlas.Graph.Components
import ImportAtlas.Proofs.Digraph.Reach
import Mathlib.Data.List.Chain
import Mathlib.Data.List.Infix

/-!
# The state of a search

What the invariant of a search speaks about, and how the operations on the state change it.
A place is open while its component is not complete: it lies on the stack. Once the component is
complete the place is closed. The places being explored are those of the frames.

## Main definitions

* `Search.Seen`, `Search.rank`: the places discovered, and their numbers
* `Search.exploring`: the places being explored, the innermost first
* `Search.Looked`: the arrows that have been looked at
* `Search.Closed`: the places whose component is complete

## Main results

* `splitStack_append`: how the stack is cut at a place
* `onStack_complete`: which places a complete component takes off the stack
-/

namespace ImportAtlas.Search

variable {n : Nat} (search : Search n)

/-- Whether a place has been discovered. -/
def Seen (place : Fin n) : Prop := (search.number.get place).isSome = true

/-- The number of a place that has been discovered. -/
def rank (place : Fin n) : Nat := (search.number.get place).getD 0

/-- The places being explored, the innermost first. -/
def exploring : List (Fin n) := search.frames.map Frame.place

/-- Whether a place has been discovered and its component is complete. -/
def Closed (place : Fin n) : Prop := search.Seen place ∧ place ∉ search.stack

/-- Whether an arrow has been looked at: its tail has been discovered, and the head waits in no
frame of the tail. -/
def Looked (digraph : Digraph n) (tail head : Fin n) : Prop :=
  digraph.HasArrow tail head ∧ search.Seen tail ∧
    ∀ frame ∈ search.frames, frame.place = tail → head ∉ frame.rest

variable {search} {digraph : Digraph n} {place other : Fin n}

theorem number_eq_some_iff {k : Nat} :
    search.number.get place = some k ↔ search.Seen place ∧ search.rank place = k := by
  unfold Seen rank
  cases search.number.get place <;> simp

theorem not_seen_iff : ¬search.Seen place ↔ search.number.get place = none := by
  simp [Seen]

/-- Once its frame is gone, or is used up, all arrows of a place have been looked at. -/
theorem looked_of_forall_frame (ha : digraph.HasArrow place other) (hs : search.Seen place)
    (hf : ∀ frame ∈ search.frames, frame.place = place → frame.rest = []) :
    search.Looked digraph place other :=
  ⟨ha, hs, fun frame hm hp => by simp [hf frame hm hp]⟩

/-! ## The start -/

@[simp] theorem number_start : (start : Search n).number.get place = none :=
  Row.get_replicate ..

@[simp] theorem onStack_start : (start : Search n).onStack.get place = false :=
  Row.get_replicate ..

@[simp] theorem stack_start : (start : Search n).stack = [] := rfl

@[simp] theorem frames_start : (start : Search n).frames = [] := rfl

@[simp] theorem exploring_start : (start : Search n).exploring = [] := rfl

@[simp] theorem found_start : (start : Search n).found = [] := rfl

theorem not_seen_start : ¬(start : Search n).Seen place :=
  not_seen_iff.mpr number_start

/-! ## Discovering a place -/

theorem number_discover :
    (search.discover digraph place).number.get other =
      if place = other then some search.next else search.number.get other :=
  Row.get_set ..

theorem seen_discover : (search.discover digraph place).Seen other ↔
    other = place ∨ search.Seen other := by
  unfold Seen
  rw [number_discover]
  split
  · next h => simp [h]
  · next h => simp [Ne.symm h]

@[simp] theorem rank_discover_self : (search.discover digraph place).rank place = search.next := by
  simp [rank, number_discover]

theorem rank_discover_of_ne (h : other ≠ place) :
    (search.discover digraph place).rank other = search.rank other := by
  simp [rank, number_discover, Ne.symm h]

@[simp] theorem lowLink_discover_self :
    (search.discover digraph place).lowLink.get place = search.next :=
  (Row.get_set ..).trans (if_pos rfl)

theorem lowLink_discover_of_ne (h : other ≠ place) :
    (search.discover digraph place).lowLink.get other = search.lowLink.get other :=
  (Row.get_set ..).trans (if_neg h.symm)

theorem onStack_discover : (search.discover digraph place).onStack.get other =
    if place = other then true else search.onStack.get other :=
  Row.get_set ..

@[simp] theorem stack_discover :
    (search.discover digraph place).stack = place :: search.stack := rfl

@[simp] theorem frames_discover : (search.discover digraph place).frames =
    ⟨place, digraph.successors place⟩ :: search.frames := rfl

@[simp] theorem exploring_discover :
    (search.discover digraph place).exploring = place :: search.exploring := rfl

@[simp] theorem next_discover : (search.discover digraph place).next = search.next + 1 := rfl

@[simp] theorem found_discover : (search.discover digraph place).found = search.found := rfl

/-! ## Lowering a low link -/

theorem lowLink_lower (bound : Nat) : (search.lower place bound).lowLink.get other =
    if place = other then min (search.lowLink.get place) bound else search.lowLink.get other :=
  Row.get_set ..

theorem lowLink_lower_le (bound : Nat) :
    (search.lower place bound).lowLink.get other ≤ search.lowLink.get other := by
  rw [lowLink_lower]
  split
  · next h => exact h ▸ Nat.min_le_left ..
  · exact Nat.le_refl _

theorem lowLink_lower_self_le (bound : Nat) :
    (search.lower place bound).lowLink.get place ≤ bound := by
  rw [lowLink_lower, if_pos rfl]
  exact Nat.min_le_right ..

/-! ## Completing a component -/

theorem splitStack_append {above : List (Fin n)} (below : List (Fin n)) (h : place ∉ above) :
    splitStack place (above ++ place :: below) = (above ++ [place], below) := by
  induction above with
  | nil => simp [splitStack]
  | cons top above ih =>
    obtain ⟨hne, hm⟩ := not_or.mp (mt List.mem_cons.mpr h)
    simp [splitStack, Ne.symm hne, ih hm]

theorem get_foldl_set_false (places : List (Fin n)) (row : Vector Bool n) :
    (places.foldl (fun row (place : Fin n) => row.set place false place.isLt) row).get other =
      (!places.contains other && row.get other) := by
  induction places generalizing row with
  | nil => simp
  | cons place places ih =>
    rw [List.foldl_cons, ih, Row.get_set]
    by_cases h : place = other
    · simp [h]
    · simp [h, Ne.symm h]

section Complete

variable {first : Nat} {above below : List (Fin n)}
  (hs : search.stack = above ++ place :: below) (hm : place ∉ above)

include hs hm

variable (search) in
theorem stack_complete : (search.complete digraph place first).stack = below := by
  simp [complete, hs, splitStack_append below hm]

variable (search) in
theorem onStack_complete : (search.complete digraph place first).onStack.get other =
    (!(above ++ [place]).contains other && search.onStack.get other) := by
  simp only [complete, hs, splitStack_append below hm]
  exact get_foldl_set_false _ _

variable (search) in
theorem found_complete : (search.complete digraph place first).found =
    if 1 < (above ++ [place]).length ∨ digraph.HasArrow place place then
      ⟨first, (above ++ [place]).reverse⟩ :: search.found
    else search.found := by
  simp [complete, hs, splitStack_append below hm, Digraph.hasLoop_iff]

end Complete

end ImportAtlas.Search
