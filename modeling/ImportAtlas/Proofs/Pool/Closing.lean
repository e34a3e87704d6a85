import ImportAtlas.Proofs.Pool.Invariant

/-!
# Every schedule can be closed

The worker that has the lock can always go on, and once the lock is free every worker can. So a
worker for which the lock is free or its own finishes its task alone, with one move for each stage
that is left, and touches nothing that belongs to another worker. Wherever a schedule stops, the
workers can finish one after the other, beginning with the one that has the lock, and then one of
them can handle the items that wait.

## Main definitions

* `Pool.Ended`: nothing is left to do
* `Pool.FreeFor`, `Pool.Keeps`: a worker need not wait, and leaves alone what is not its own
* `Pool.Idle`: no worker has a task

## Main results

* `Guarded.run_replicate`: a worker that need not wait finishes its task
* `Guarded.ended_closing`: after `Pool.closing` nothing is left to do
-/

namespace ImportAtlas

variable {ε β : Type} {total workers : Nat}

/-- The moves that it takes to finish a task from a stage on. -/
def Stage.left : Stage ε β → Nat
  | .taken => 6
  | .worked _ => 5
  | .entered _ => 4
  | .counted _ => 3
  | .reported _ => 2
  | .released _ => 1

namespace Pool

variable {work : Fin total → Except ε β} {pool middle after : Pool ε β total workers}
  {worker helper : Fin workers} {place : Fin total} {task : Task ε β total}

/-- Nothing is left to do: no worker has a task, and no item waits unless one has failed. -/
structure Ended (pool : Pool ε β total workers) : Prop where
  tasks_eq : ∀ worker, pool.tasks.get worker = none
  waiting_eq_or : pool.waiting = [] ∨ ∃ e, pool.batch.failure = some e

/-- No worker has a task, and the lock is free. -/
structure Idle (pool : Pool ε β total workers) : Prop where
  tasks_eq : ∀ worker, pool.tasks.get worker = none
  lock_eq : pool.lock = none

/-- A worker need not wait for another one to give back the lock. -/
def FreeFor (pool : Pool ε β total workers) (worker : Fin workers) : Prop :=
  pool.lock = none ∨ pool.lock = some worker

/-- The moves that it takes a worker to finish its task. -/
def left (pool : Pool ε β total workers) (worker : Fin workers) : Nat :=
  (pool.tasks.get worker).elim 0 (·.stage.left)

/-- What is not a worker's own has stayed. -/
structure Keeps (pool after : Pool ε β total workers) (worker : Fin workers) : Prop where
  waiting_eq : after.waiting = pool.waiting
  tasks_eq : ∀ other, worker ≠ other → after.tasks.get other = pool.tasks.get other

theorem Keeps.refl : Keeps pool pool worker := ⟨rfl, fun _ _ => rfl⟩

theorem Keeps.trans (h : Keeps pool middle worker) (h' : Keeps middle after worker) :
    Keeps pool after worker where
  waiting_eq := h'.waiting_eq.trans h.waiting_eq
  tasks_eq := fun other hne => (h'.tasks_eq other hne).trans (h.tasks_eq other hne)

theorem keeps_advance (next : Option (Task ε β total)) (lock : Option (Fin workers))
    (batch : Batch ε β total) : Keeps pool (pool.advance worker next lock batch) worker where
  waiting_eq := rfl
  tasks_eq := fun other hne => by rw [advance, Row.get_set, if_neg hne]

theorem Guarded.run (h : pool.Guarded) (schedule : List (Move total workers)) :
    (pool.run work schedule).Guarded :=
  run_induction h Guarded.transition schedule

theorem Idle.guarded (h : pool.Idle) : pool.Guarded where
  lock_eq_iff := by
    intro worker
    simp [h.lock_eq, Holds, h.tasks_eq]

/-! ## A worker finishes its task -/

theorem step_proceed_of_none (h : pool.tasks.get worker = none) :
    pool.step work (.proceed worker) = pool := by
  simp only [step, h]

theorem step_proceed_of_holds (h : pool.Holds worker task) :
    pool.step work (.proceed worker) = pool.proceed work worker task := by
  rw [Holds] at h
  simp only [step, h]

/-- **A worker that need not wait goes on**, and need not wait then. -/
theorem Guarded.exists_advance (h : pool.Guarded) (hfree : pool.FreeFor worker)
    (hw : pool.Holds worker task) : ∃ next lock batch,
      pool.step work (.proceed worker) = pool.advance worker next lock batch ∧
        (pool.advance worker next lock batch).FreeFor worker ∧
        (pool.advance worker next lock batch).left worker < pool.left worker := by
  have hleft : ∀ {next lock batch}, (pool.advance worker next lock batch).left worker =
      next.elim 0 (·.stage.left) := by
    intro next lock batch
    rw [left, Pool.advance, Row.get_set, if_pos rfl]
  have hold : pool.left worker = task.stage.left := by rw [left, hw, Option.elim_some]
  rw [step_proceed_of_holds hw]
  simp only [hleft, hold]
  obtain ⟨place, stage⟩ := task
  cases stage with
  | taken => exact ⟨_, _, _, rfl, hfree, Nat.lt_add_one _⟩
  | worked result =>
    -- The worker does not have the lock yet, so nobody has.
    have hnone : pool.lock = none := hfree.resolve_right fun hlock =>
      Bool.false_ne_true ((h.lock_eq_iff_of_holds hw).mp hlock)
    refine ⟨some ⟨place, .entered result⟩, some worker, pool.batch, ?_, .inr rfl, Nat.lt_add_one _⟩
    simp [proceed, hnone, assign, Pool.advance]
  | entered result => exact ⟨_, _, _, rfl, hfree, Nat.lt_add_one _⟩
  | counted result => exact ⟨_, _, _, rfl, hfree, Nat.lt_add_one _⟩
  | reported result => exact ⟨_, _, _, rfl, .inl rfl, Nat.lt_add_one _⟩
  | released result => exact ⟨_, _, _, rfl, hfree, Nat.lt_add_one _⟩

/-- **A worker that need not wait finishes its task.** -/
theorem Guarded.run_replicate (h : pool.Guarded) (hfree : pool.FreeFor worker) {moves : Nat}
    (hmoves : pool.left worker ≤ moves) :
    (pool.run work (List.replicate moves (.proceed worker))).lock = none ∧
      (pool.run work (List.replicate moves (.proceed worker))).tasks.get worker = none ∧
      Keeps pool (pool.run work (List.replicate moves (.proceed worker))) worker := by
  -- One move for each stage that is left; moves beyond the last stage change nothing.
  induction moves generalizing pool with
  | zero =>
    have hnone : pool.tasks.get worker = none := by
      cases ht : pool.tasks.get worker with
      | none => rfl
      | some task =>
        rw [left, ht, Option.elim_some] at hmoves
        cases hs : task.stage <;> simp [hs, Stage.left] at hmoves
    refine ⟨hfree.resolve_right fun hlock => ?_, hnone, .refl⟩
    obtain ⟨task, hw, -⟩ := h.lock_eq_iff.mp hlock
    exact nomatch hnone.symm.trans hw
  | succ moves ih =>
    rw [List.replicate_succ, run_cons]
    cases ht : pool.tasks.get worker with
    | none =>
      rw [step_proceed_of_none ht]
      exact ih h hfree (by simp [left, ht])
    | some task =>
      have hguarded : (pool.step work (.proceed worker)).Guarded := h.run [.proceed worker]
      obtain ⟨next, lock, batch, hstep, hfree', hless⟩ := h.exists_advance hfree ht
      rw [hstep] at hguarded ⊢
      obtain ⟨hlock, htask, hkeeps⟩ := ih hguarded hfree' (by omega)
      exact ⟨hlock, htask, (keeps_advance next lock batch).trans hkeeps⟩

theorem Guarded.run_finishing (h : pool.Guarded) (hfree : pool.FreeFor worker) :
    (pool.run work (finishing worker)).lock = none ∧
      (pool.run work (finishing worker)).tasks.get worker = none ∧
      Keeps pool (pool.run work (finishing worker)) worker := by
  refine h.run_replicate hfree ?_
  rw [left]
  cases pool.tasks.get worker with
  | none => exact Nat.zero_le 6
  | some task => cases hs : task.stage <;> simp [hs, Stage.left]

/-! ## The workers finish one after the other -/

theorem Guarded.run_flatMap_finishing (h : pool.Guarded) (hlock : pool.lock = none)
    (several : List (Fin workers)) :
    (pool.run work (several.flatMap finishing)).lock = none ∧
      (pool.run work (several.flatMap finishing)).waiting = pool.waiting ∧
      ∀ worker, worker ∈ several ∨ pool.tasks.get worker = none →
        (pool.run work (several.flatMap finishing)).tasks.get worker = none := by
  induction several generalizing pool with
  | nil => exact ⟨hlock, rfl, fun worker hw => hw.resolve_left List.not_mem_nil⟩
  | cons first several ih =>
    rw [List.flatMap_cons, run_append]
    obtain ⟨hlock', htask, hkeeps⟩ := h.run_finishing (.inl hlock)
    obtain ⟨hlast, hwaiting, hnone⟩ := ih (h.run (finishing first)) hlock'
    refine ⟨hlast, hwaiting.trans hkeeps.waiting_eq, fun worker hw => hnone worker ?_⟩
    -- The first worker is done for good, and the others still have what they had.
    by_cases he : first = worker
    · exact .inr (he ▸ htask)
    · rw [hkeeps.tasks_eq worker he]
      exact hw.imp_left fun hm => (List.mem_cons.mp hm).resolve_left (ne_comm.mp he)

theorem Guarded.idle_run_finishing (h : pool.Guarded) :
    (pool.run work ((pool.lock.toList ++ List.finRange workers).flatMap finishing)).Idle ∧
      (pool.run work ((pool.lock.toList ++ List.finRange workers).flatMap finishing)).waiting =
        pool.waiting := by
  rw [List.flatMap_append, run_append]
  have hfirst : (pool.run work (pool.lock.toList.flatMap finishing)).lock = none ∧
      (pool.run work (pool.lock.toList.flatMap finishing)).waiting = pool.waiting := by
    cases hlock : pool.lock with
    | none => exact ⟨hlock, rfl⟩
    | some owner =>
      obtain ⟨hlock', -, hkeeps⟩ := h.run_finishing (.inr hlock)
      rw [Option.toList_some, List.flatMap_singleton]
      exact ⟨hlock', hkeeps.waiting_eq⟩
  obtain ⟨hlock, hwaiting, hnone⟩ :=
    (h.run (pool.lock.toList.flatMap finishing)).run_flatMap_finishing hfirst.1
      (List.finRange workers)
  exact ⟨⟨fun worker => hnone worker (.inl (List.mem_finRange worker)), hlock⟩,
    hwaiting.trans hfirst.2⟩

/-! ## One worker handles what waits -/

theorem Idle.run_handling (h : pool.Idle) {rest : List (Fin total)}
    (hwaiting : pool.waiting = place :: rest) :
    (pool.run work (handling helper place)).Idle ∧
      (pool.run work (handling helper place)).waiting = rest := by
  have htake : pool.step work (.take helper place) = pool.take helper place := by
    simp [step, h.tasks_eq, hwaiting, take, advance, assign]
  have htrans : Transition work pool (pool.take helper place) :=
    .take (h.tasks_eq helper) (hwaiting ▸ List.mem_cons_self)
  have hguarded : (pool.take helper place).Guarded := h.guarded.transition htrans
  obtain ⟨hlock, htask, hkeeps⟩ := hguarded.run_finishing (.inl h.lock_eq)
  rw [handling, run_cons, htake]
  refine ⟨⟨fun other => ?_, hlock⟩, ?_⟩
  · by_cases he : helper = other
    · exact he ▸ htask
    · rw [hkeeps.tasks_eq other he]
      exact (Row.get_set ..).trans ((if_neg he).trans (h.tasks_eq other))
  · rw [hkeeps.waiting_eq]
    simp [take, hwaiting]

theorem Idle.run_flatMap_handling (h : pool.Idle) {rest : List (Fin total)}
    (hwaiting : pool.waiting = rest) :
    (pool.run work (rest.flatMap (handling helper))).Idle ∧
      (pool.run work (rest.flatMap (handling helper))).waiting = [] := by
  induction rest generalizing pool with
  | nil => exact ⟨h, hwaiting⟩
  | cons place rest ih =>
    rw [List.flatMap_cons, run_append]
    obtain ⟨hidle, hrest⟩ := h.run_handling hwaiting
    exact ih hidle hrest

/-- **Wherever a schedule stops, it can be closed.** -/
theorem Guarded.ended_closing (h : pool.Guarded) (helper : Fin workers) :
    (pool.run work (pool.closing helper)).Ended := by
  rw [closing, run_append]
  obtain ⟨hidle, hwaiting⟩ := h.idle_run_finishing
  obtain ⟨hlast, hnil⟩ := hidle.run_flatMap_handling hwaiting
  exact ⟨hlast.tasks_eq, .inl hnil⟩

end Pool

end ImportAtlas
