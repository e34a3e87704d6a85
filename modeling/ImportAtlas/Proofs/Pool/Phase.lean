import ImportAtlas.Proofs.Pool.Transition
import Mathlib.Data.Finset.Card
import Mathlib.Data.Fintype.Basic
import Mathlib.Data.List.ReduceOption

/-!
# The phases of an item

An item waits, or one worker has it at some stage, or it has been delivered. No item is lost, and no
two workers have the same one. So every item is in one phase, and a transition takes one item to its
next phase and leaves the others where they are. Counting the items that have come to a phase, a
transition adds one to the count of a single phase.

## Main definitions

* `Phase`, `Pool.phase`: how far an item has come
* `Pool.past`, `Pool.processed`: the items that have come to a phase
* `Pool.Owned`: every item is in one place

## Main results

* `Owned.transition`: the transitions keep items in one place
* `Owned.phase_take`, `Owned.phase_advance`: a transition takes one item to its next phase
* `card_past_next`: the number of items that have come to a phase
-/

namespace ImportAtlas

/-- How far an item has come. -/
inductive Phase where
  | waiting
  | taken
  | worked
  | entered
  | counted
  | reported
  | released
  | delivered
  deriving DecidableEq

namespace Phase

instance : LE Phase := ⟨fun earlier later => earlier.ctorIdx ≤ later.ctorIdx⟩

instance : DecidableLE Phase := fun earlier later =>
  inferInstanceAs (Decidable (earlier.ctorIdx ≤ later.ctorIdx))

/-- The phase after another one. -/
def next : Phase → Phase
  | .waiting => .taken
  | .taken => .worked
  | .worked => .entered
  | .entered => .counted
  | .counted => .reported
  | .reported => .released
  | .released => .delivered
  | .delivered => .delivered

variable {goal phase : Phase}

theorem le_next_iff (h : phase ≠ .delivered) :
    goal ≤ phase.next ↔ goal ≤ phase ∨ goal = phase.next := by
  cases phase <;> first | exact absurd rfl h | cases goal <;> decide

theorem counted_le_iff : .counted ≤ phase ↔ phase = .counted ∨ .reported ≤ phase := by
  cases phase <;> decide

theorem next_eq_reported_iff : phase.next = .reported ↔ phase = .counted := by
  cases phase <;> decide

theorem not_next_le (h : phase ≠ .delivered) : ¬phase.next ≤ phase := by
  cases phase <;> first | exact absurd rfl h | decide

end Phase

/-- The phase of an item at a stage. -/
def Stage.phase {ε β : Type} : Stage ε β → Phase
  | .taken => .taken
  | .worked _ => .worked
  | .entered _ => .entered
  | .counted _ => .counted
  | .reported _ => .reported
  | .released _ => .released

namespace Pool

variable {ε β : Type} {total workers : Nat} {work : Fin total → Except ε β}
  {pool after : Pool ε β total workers} {worker other : Fin workers} {place : Fin total}
  {task : Task ε β total}

/-- The phase of the item of a place. -/
def phase (pool : Pool ε β total workers) (place : Fin total) : Phase :=
  if place ∈ pool.waiting then .waiting
  else (pool.tasks.toList.reduceOption.find? (·.place = place)).elim .delivered (·.stage.phase)

/-- The items that have come to a phase. -/
def past (pool : Pool ε β total workers) (phase : Phase) : Finset (Fin total) :=
  Finset.univ.filter fun place => phase ≤ pool.phase place

/-- The items that have been worked on, counted and reported. -/
def processed (pool : Pool ε β total workers) : Finset (Fin total) := pool.past .reported

@[simp] theorem mem_past {phase : Phase} : place ∈ pool.past phase ↔ phase ≤ pool.phase place := by
  simp [past]

/-- Every item is in one place: no item waits twice, none waits that a worker has, and no two
workers have the same one. -/
structure Owned (pool : Pool ε β total workers) : Prop where
  waiting_nodup : pool.waiting.Nodup
  not_mem_waiting : ∀ {worker task}, pool.Holds worker task → task.place ∉ pool.waiting
  holder_eq : ∀ {worker other task task'}, pool.Holds worker task → pool.Holds other task' →
    task.place = task'.place → worker = other

/-! ## The phase of each item -/

theorem mem_tasks_iff : some task ∈ pool.tasks.toList ↔ ∃ worker, pool.Holds worker task := by
  rw [Vector.mem_toList_iff, Vector.mem_iff_getElem]
  constructor
  · rintro ⟨k, hk, heq⟩
    exact ⟨⟨k, hk⟩, heq⟩
  · rintro ⟨worker, h⟩
    exact ⟨worker.val, worker.isLt, h⟩

theorem phase_of_mem_waiting (h : place ∈ pool.waiting) : pool.phase place = .waiting := by
  rw [phase, if_pos h]

theorem phase_of_not_holds (h : place ∉ pool.waiting)
    (hn : ∀ {worker task}, pool.Holds worker task → task.place ≠ place) :
    pool.phase place = .delivered := by
  have hnone : pool.tasks.toList.reduceOption.find? (·.place = place) = none := by
    rw [List.find?_eq_none]
    intro task hm
    obtain ⟨worker, hw⟩ := mem_tasks_iff.mp (List.reduceOption_mem_iff.mp hm)
    simpa using hn hw
  rw [phase, if_neg h, hnone, Option.elim_none]

theorem Owned.phase_of_holds (h : pool.Owned) (hw : pool.Holds worker task) :
    pool.phase task.place = task.stage.phase := by
  have hsome : pool.tasks.toList.reduceOption.find? (·.place = task.place) = some task := by
    have hmem : task ∈ pool.tasks.toList.reduceOption :=
      List.reduceOption_mem_iff.mpr (mem_tasks_iff.mpr ⟨worker, hw⟩)
    have hisSome : (pool.tasks.toList.reduceOption.find? (·.place = task.place)).isSome :=
      List.find?_isSome.mpr ⟨task, hmem, decide_eq_true rfl⟩
    obtain ⟨found, hfound⟩ := Option.isSome_iff_exists.mp hisSome
    obtain ⟨other, ho⟩ := mem_tasks_iff.mp
      (List.reduceOption_mem_iff.mp (List.mem_of_find?_eq_some hfound))
    -- Whatever task is found, the worker that has it is the one at hand.
    have hplace : found.place = task.place := by simpa using List.find?_some hfound
    obtain rfl := h.holder_eq ho hw hplace
    rw [hfound, ho.eq hw]
  rw [phase, if_neg (h.not_mem_waiting hw), hsome, Option.elim_some]

/-- An item waits, or a worker has it, or it has been delivered. -/
theorem Owned.phase_cases (h : pool.Owned) (place : Fin total) :
    place ∈ pool.waiting ∧ pool.phase place = .waiting ∨
      (∃ worker task, pool.Holds worker task ∧ task.place = place ∧
        pool.phase place = task.stage.phase) ∨
      place ∉ pool.waiting ∧ (∀ {worker task}, pool.Holds worker task → task.place ≠ place) ∧
        pool.phase place = .delivered := by
  by_cases hm : place ∈ pool.waiting
  · exact .inl ⟨hm, phase_of_mem_waiting hm⟩
  · by_cases hex : ∃ worker task, pool.Holds worker task ∧ task.place = place
    · obtain ⟨worker, task, hw, rfl⟩ := hex
      exact .inr (.inl ⟨worker, task, hw, rfl, h.phase_of_holds hw⟩)
    · have hn : ∀ {worker task}, pool.Holds worker task → task.place ≠ place :=
        fun {worker task} hw he => hex ⟨worker, task, hw, he⟩
      exact .inr (.inr ⟨hm, hn, phase_of_not_holds hm hn⟩)

/-- An item that is where it was is in the phase in which it was. -/
theorem Owned.phase_congr (h : pool.Owned) (ha : after.Owned)
    (hwaiting : place ∈ after.waiting ↔ place ∈ pool.waiting)
    (hholds : ∀ {worker task}, task.place = place →
      (after.Holds worker task ↔ pool.Holds worker task)) :
    after.phase place = pool.phase place := by
  rcases h.phase_cases place with ⟨hm, hp⟩ | ⟨worker, task, hw, rfl, hp⟩ | ⟨hm, hn, hp⟩
  · rw [hp, phase_of_mem_waiting (hwaiting.mpr hm)]
  · rw [hp, ha.phase_of_holds ((hholds rfl).mpr hw)]
  · rw [hp, phase_of_not_holds (mt hwaiting.mp hm) fun hw he => hn ((hholds he).mp hw) he]

/-! ## Transitions take one item to its next phase -/

theorem Owned.start : (start : Pool ε β total workers).Owned where
  waiting_nodup := List.nodup_finRange total
  not_mem_waiting := fun h => (not_holds_start h).elim
  holder_eq := fun h => (not_holds_start h).elim

section Take

variable (h : pool.Owned) (hfree : pool.tasks.get worker = none) (hm : place ∈ pool.waiting)

include h hm

theorem Owned.take : (pool.take worker place).Owned where
  waiting_nodup := h.waiting_nodup.erase place
  not_mem_waiting := by
    intro other task ho
    rw [holds_take_iff] at ho
    split at ho
    · obtain rfl := Option.some.inj ho
      exact h.waiting_nodup.not_mem_erase
    · exact mt List.mem_of_mem_erase (h.not_mem_waiting ho)
  holder_eq := by
    intro other another task task' ho ha heq
    rw [holds_take_iff] at ho ha
    -- No worker had the item while it was waiting.
    split at ho <;> split at ha
    · next h₁ h₂ => exact h₁.symm.trans h₂
    · obtain rfl := Option.some.inj ho
      exact absurd (heq ▸ hm) (h.not_mem_waiting ha)
    · obtain rfl := Option.some.inj ha
      exact absurd (heq ▸ hm) (h.not_mem_waiting ho)
    · exact h.holder_eq ho ha heq

include hfree

theorem Owned.phase_take :
    (pool.take worker place).phase = Function.update pool.phase place .taken := by
  funext another
  by_cases he : another = place
  · subst he
    rw [Function.update_self]
    have hholds : (pool.take worker another).Holds worker ⟨another, .taken⟩ :=
      holds_take_iff.mpr (by rw [if_pos rfl])
    exact (h.take hm).phase_of_holds hholds
  · rw [Function.update_of_ne he]
    refine h.phase_congr (h.take hm) (List.mem_erase_of_ne he) fun {other task} ht => ?_
    rw [holds_take_iff]
    split
    · next hw =>
      constructor
      · intro heq
        obtain rfl := Option.some.inj heq
        exact absurd ht.symm he
      · intro ho
        rw [Holds, ← hw, hfree] at ho
        cases ho
    · rfl

end Take

section Advance

variable {stage : Stage ε β} {next : Option (Task ε β total)} {lock : Option (Fin workers)}
  {batch : Batch ε β total} (h : pool.Owned) (hw : pool.Holds worker ⟨place, stage⟩)
  (hnext : ∀ task ∈ next, task.place = place)

include hw hnext

/-- What a worker has after it has gone on, it had before. -/
theorem exists_holds_of_advance (ho : (pool.advance worker next lock batch).Holds other task) :
    ∃ task', pool.Holds other task' ∧ task'.place = task.place := by
  rw [holds_advance_iff] at ho
  split at ho
  · next he => exact ⟨_, he ▸ hw, (hnext task ho).symm⟩
  · exact ⟨task, ho, rfl⟩

include h

theorem Owned.advance : (pool.advance worker next lock batch).Owned where
  waiting_nodup := h.waiting_nodup
  not_mem_waiting := by
    intro other task ho
    obtain ⟨task', ho', heq⟩ := exists_holds_of_advance hw hnext ho
    exact heq ▸ h.not_mem_waiting ho'
  holder_eq := by
    intro other another task task' ho ha heq
    obtain ⟨_, ho', hp⟩ := exists_holds_of_advance hw hnext ho
    obtain ⟨_, ha', hp'⟩ := exists_holds_of_advance hw hnext ha
    exact h.holder_eq ho' ha' (by rw [hp, hp', heq])

theorem Owned.phase_advance :
    (pool.advance worker next lock batch).phase =
      Function.update pool.phase place (next.elim .delivered (·.stage.phase)) := by
  have hadvance : (pool.advance worker next lock batch).Owned := h.advance hw hnext
  funext another
  by_cases he : another = place
  · subst he
    rw [Function.update_self]
    cases next with
    | none =>
      -- Another worker with the item would have had it before.
      refine phase_of_not_holds (h.not_mem_waiting hw) fun {other task} ho heq => ?_
      rw [holds_advance_iff] at ho
      split at ho
      · cases ho
      · next hne => exact hne (h.holder_eq hw ho heq.symm)
    | some task =>
      obtain rfl := hnext task rfl
      have hholds : (pool.advance worker (some task) lock batch).Holds worker task :=
        holds_advance_iff.mpr (by rw [if_pos rfl])
      exact hadvance.phase_of_holds hholds
  · rw [Function.update_of_ne he]
    refine h.phase_congr hadvance Iff.rfl fun {other task} ht => ?_
    rw [holds_advance_iff]
    split
    · next hother =>
      constructor
      · exact fun heq => absurd (ht.symm.trans (hnext task heq)) he
      · exact fun ho => absurd (ht.symm.trans (congrArg Task.place ((hother ▸ ho).eq hw))) he
    · rfl

end Advance

/-- **The transitions keep every item in one place.** -/
theorem Owned.transition (h : pool.Owned) (ht : Transition work pool after) : after.Owned := by
  cases ht with
  | take _ hm => exact h.take hm
  | work hw => exact h.advance hw (by simp)
  | enter hw _ => exact h.advance hw (by simp)
  | count hw => exact h.advance hw (by simp)
  | report hw => exact h.advance hw (by simp)
  | release hw => exact h.advance hw (by simp)
  | deliver hw => exact h.advance hw (by simp)

/-! ## Counting items -/

/-- If one item moves on to its next phase, the number of the items that have come to that phase
goes up by one, and no other number changes. -/
theorem card_past_next {goal : Phase} (hne : pool.phase place ≠ .delivered)
    (hphase : after.phase = Function.update pool.phase place (pool.phase place).next) :
    (after.past goal).card =
      (pool.past goal).card + if (pool.phase place).next = goal then 1 else 0 := by
  have hmem : ∀ {another}, another ∈ after.past goal ↔ another ∈ pool.past goal ∨
      another = place ∧ (pool.phase place).next = goal := by
    intro another
    rw [mem_past, mem_past, hphase, Function.update_apply]
    split
    · next he => rw [he, Phase.le_next_iff hne, eq_comm (a := goal), and_iff_right rfl]
    · next he => simp [he]
  split
  · next hgoal =>
    have hinsert : after.past goal = insert place (pool.past goal) := by
      ext another
      rw [hmem, Finset.mem_insert, and_iff_left hgoal, or_comm]
    rw [hinsert, Finset.card_insert_of_notMem]
    exact fun hm => Phase.not_next_le hne (hgoal ▸ mem_past.mp hm)
  · next hgoal =>
    rw [Nat.add_zero]
    congr 1
    ext another
    simp [hmem, hgoal]

end Pool

end ImportAtlas
