import ImportAtlas.Graph.Digraph
import Mathlib.Logic.Relation

/-!
# Reachability in digraphs

The strongly connected component of a place holds the places that reach it and are reached from
it. A component is a cycle if it has more than one place, or if its place is its own successor.

## Main definitions

* `Digraph.HasArrow`, `Digraph.Reaches`, `Digraph.Connected`: arrows, paths, and paths both ways
* `Digraph.OnCycle`: whether the component of a place is a cycle
* `Digraph.IsCycle`: the lists that hold the places of such a component
-/

namespace ImportAtlas.Digraph

variable {n : Nat}

/-- Whether there is an arrow from one place to another. -/
def HasArrow (digraph : Digraph n) (tail head : Fin n) : Prop :=
  head ∈ digraph.successors tail

instance (digraph : Digraph n) (tail head : Fin n) : Decidable (digraph.HasArrow tail head) :=
  inferInstanceAs (Decidable (head ∈ digraph.successors tail))

theorem hasArrow_ofArrows (arrows : List (Fin n × Fin n)) (tail head : Fin n) :
    (ofArrows arrows).HasArrow tail head ↔ (tail, head) ∈ arrows := by
  simp only [HasArrow, successors_ofArrows, List.mem_map, List.mem_filter, beq_iff_eq]
  constructor
  · rintro ⟨arrow, ⟨hm, rfl⟩, rfl⟩
    exact hm
  · intro hm
    exact ⟨(tail, head), ⟨hm, rfl⟩, rfl⟩

/-! ## Digraphs whose successors are sorted -/

theorem mem_eraseReps_loop (place first : Fin n) (rest erased : List (Fin n)) :
    place ∈ List.eraseRepsBy.loop (· == ·) first rest erased ↔
      place ∈ erased ∨ place = first ∨ place ∈ rest := by
  induction rest generalizing first erased with
  | nil => simp [List.eraseRepsBy.loop, or_comm]
  | cons next rest ih =>
    unfold List.eraseRepsBy.loop
    split
    · next heq =>
      -- The next one repeats the first, which stays.
      obtain rfl := beq_iff_eq.mp heq
      rw [ih, List.mem_cons, or_self_left]
    · rw [ih, List.mem_cons, List.mem_cons, or_comm (a := place = first), or_assoc]

theorem mem_eraseReps (place : Fin n) (places : List (Fin n)) :
    place ∈ places.eraseReps ↔ place ∈ places := by
  cases places with
  | nil => rfl
  | cons first rest =>
    rw [List.mem_cons, ← false_or (place = first ∨ place ∈ rest),
      ← eq_false (List.not_mem_nil (a := place))]
    exact mem_eraseReps_loop place first rest []

theorem successors_sorted (digraph : Digraph n) (place : Fin n) :
    digraph.sorted.successors place =
      ((digraph.successors place).mergeSort (· ≤ ·)).eraseReps := by
  simp [sorted, successors, Row.get_eq_getElem]

/-- The arrows are the same if the successors are put in order, each once. -/
theorem hasArrow_sorted (digraph : Digraph n) (tail head : Fin n) :
    digraph.sorted.HasArrow tail head ↔ digraph.HasArrow tail head := by
  unfold HasArrow
  rw [successors_sorted, mem_eraseReps, List.mem_mergeSort]

/-! ## Reachability -/

theorem hasLoop_iff (digraph : Digraph n) (place : Fin n) :
    digraph.hasLoop place = true ↔ digraph.HasArrow place place := by
  simp [hasLoop, HasArrow]

/-- Whether a place is reached from another one. -/
abbrev Reaches (digraph : Digraph n) : Fin n → Fin n → Prop :=
  Relation.ReflTransGen digraph.HasArrow

/-- Whether two places reach each other. -/
def Connected (digraph : Digraph n) (a b : Fin n) : Prop :=
  digraph.Reaches a b ∧ digraph.Reaches b a

variable {digraph : Digraph n} {a b c : Fin n}

theorem Connected.refl (a : Fin n) : digraph.Connected a a := ⟨.refl, .refl⟩

theorem Connected.symm (h : digraph.Connected a b) : digraph.Connected b a := ⟨h.2, h.1⟩

theorem Connected.trans (h : digraph.Connected a b) (h' : digraph.Connected b c) :
    digraph.Connected a c :=
  ⟨h.1.trans h'.1, h'.2.trans h.2⟩

variable (digraph)

/-- Whether the component of a place is a cycle. -/
def OnCycle (place : Fin n) : Prop :=
  (∃ other, other ≠ place ∧ digraph.Connected place other) ∨ digraph.HasArrow place place

variable {digraph} in
theorem OnCycle.of_connected (h : digraph.OnCycle b) (hc : digraph.Connected a b) :
    digraph.OnCycle a := by
  by_cases he : b = a
  · exact he ▸ h
  · exact .inl ⟨b, he, hc⟩

/-- The lists that hold the places of a component that is a cycle, each once. -/
structure IsCycle (members : List (Fin n)) : Prop where
  nodup : members.Nodup
  component : ∃ place, digraph.OnCycle place ∧
    ∀ member, member ∈ members ↔ digraph.Connected place member

end ImportAtlas.Digraph
