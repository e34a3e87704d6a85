import ImportAtlas.Analysis.Pool
import ImportAtlas.Indexed

/-!
# What a move of a pool does

A move changes nothing, or it is one of seven transitions: a worker without a task takes an item, or
a worker with a task goes on to its next stage. Only two of them ask for more than the stage of the
worker: an item can be taken if it waits, and a worker gets the lock if nobody has it. What the
transitions keep holds after every schedule.

## Main definitions

* `Pool.Holds`: the tasks of the workers
* `Pool.advance`: the pool after a worker has gone on
* `Pool.Transition`: the transitions

## Main results

* `Pool.step_eq_or_transition`: a move changes nothing or is a transition
* `Pool.run_induction`: what the transitions keep holds after every schedule
-/

namespace ImportAtlas.Pool

variable {ε β : Type} {total workers : Nat} {work : Fin total → Except ε β}
  {pool : Pool ε β total workers} {worker other : Fin workers} {place : Fin total}
  {task : Task ε β total}

/-- A worker has a task. -/
def Holds (pool : Pool ε β total workers) (worker : Fin workers) (task : Task ε β total) : Prop :=
  pool.tasks.get worker = some task

theorem Holds.eq {task' : Task ε β total} (h : pool.Holds worker task)
    (h' : pool.Holds worker task') : task = task' :=
  Option.some.inj (h.symm.trans h')

theorem not_holds_start : ¬(start : Pool ε β total workers).Holds worker task := by
  have hnone : (start : Pool ε β total workers).tasks.get worker = none := Row.get_replicate ..
  rw [Holds, hnone]
  exact (Option.some_ne_none task).symm

/-- The pool after a worker has gone on to another task, or to none, with the lock and the batch as
they are then. -/
def advance (pool : Pool ε β total workers) (worker : Fin workers)
    (next : Option (Task ε β total)) (lock : Option (Fin workers)) (batch : Batch ε β total) :
    Pool ε β total workers :=
  ⟨pool.waiting, pool.tasks.set worker next worker.isLt, lock, batch⟩

/-- The pool after a worker has taken an item. -/
def take (pool : Pool ε β total workers) (worker : Fin workers) (place : Fin total) :
    Pool ε β total workers :=
  { pool.advance worker (some ⟨place, .taken⟩) pool.lock pool.batch with
    waiting := pool.waiting.erase place }

section Tasks

variable {next : Option (Task ε β total)} {lock : Option (Fin workers)} {batch : Batch ε β total}

theorem holds_advance_iff : (pool.advance worker next lock batch).Holds other task ↔
    if worker = other then next = some task else pool.Holds other task := by
  simp only [Holds, advance, Row.get_set]
  split <;> rfl

theorem holds_take_iff : (pool.take worker place).Holds other task ↔
    if worker = other then some ⟨place, .taken⟩ = some task else pool.Holds other task :=
  show (pool.advance worker _ pool.lock pool.batch).Holds other task ↔ _ from holds_advance_iff

end Tasks

/-- What may happen to a pool. -/
inductive Transition (work : Fin total → Except ε β) (pool : Pool ε β total workers) :
    Pool ε β total workers → Prop
  | take {worker : Fin workers} {place : Fin total} :
      pool.tasks.get worker = none → place ∈ pool.waiting →
      Transition work pool (pool.take worker place)
  | work {worker : Fin workers} {place : Fin total} :
      pool.Holds worker ⟨place, .taken⟩ →
      Transition work pool
        (pool.advance worker (some ⟨place, .worked (work place)⟩) pool.lock pool.batch)
  | enter {worker : Fin workers} {place : Fin total} {result : Except ε β} :
      pool.Holds worker ⟨place, .worked result⟩ → pool.lock = none →
      Transition work pool
        (pool.advance worker (some ⟨place, .entered result⟩) (some worker) pool.batch)
  | count {worker : Fin workers} {place : Fin total} {result : Except ε β} :
      pool.Holds worker ⟨place, .entered result⟩ →
      Transition work pool
        (pool.advance worker (some ⟨place, .counted result⟩) pool.lock pool.batch.count)
  | report {worker : Fin workers} {place : Fin total} {result : Except ε β} :
      pool.Holds worker ⟨place, .counted result⟩ →
      Transition work pool
        (pool.advance worker (some ⟨place, .reported result⟩) pool.lock pool.batch.report)
  | release {worker : Fin workers} {place : Fin total} {result : Except ε β} :
      pool.Holds worker ⟨place, .reported result⟩ →
      Transition work pool
        (pool.advance worker (some ⟨place, .released result⟩) none pool.batch)
  | deliver {worker : Fin workers} {place : Fin total} {result : Except ε β} :
      pool.Holds worker ⟨place, .released result⟩ →
      Transition work pool
        (pool.advance worker none pool.lock (pool.batch.deliver place result))

theorem proceed_eq_or_transition (h : pool.Holds worker task) :
    pool.proceed work worker task = pool ∨
      Transition work pool (pool.proceed work worker task) := by
  obtain ⟨place, stage⟩ := task
  cases stage with
  | taken => exact .inr (.work h)
  | worked result =>
    by_cases hl : pool.lock = none
    · have heq : pool.proceed work worker ⟨place, .worked result⟩ =
          pool.advance worker (some ⟨place, .entered result⟩) (some worker) pool.batch := by
        simp [proceed, hl, assign, advance]
      exact .inr (heq ▸ .enter h hl)
    · exact .inl (by simp [proceed, hl])
  | entered result => exact .inr (.count h)
  | counted result => exact .inr (.report h)
  | reported result => exact .inr (.release h)
  | released result => exact .inr (.deliver h)

/-- **A move changes nothing or is a transition.** -/
theorem step_eq_or_transition (work : Fin total → Except ε β) (pool : Pool ε β total workers)
    (move : Move total workers) :
    pool.step work move = pool ∨ Transition work pool (pool.step work move) := by
  cases move with
  | take worker place =>
    simp only [step]
    split
    · next h =>
      obtain ⟨hfree, hmem⟩ := Bool.and_eq_true_iff.mp h
      exact .inr (.take (Option.isNone_iff_eq_none.mp hfree) (List.contains_iff_mem.mp hmem))
    · exact .inl rfl
  | proceed worker =>
    simp only [step]
    split
    · exact .inl rfl
    · next task h => exact proceed_eq_or_transition h

theorem run_cons (move : Move total workers) (schedule : List (Move total workers)) :
    pool.run work (move :: schedule) = (pool.step work move).run work schedule :=
  List.foldl_cons ..

theorem run_append (first second : List (Move total workers)) :
    pool.run work (first ++ second) = (pool.run work first).run work second :=
  List.foldl_append

/-- **What the transitions keep holds after every schedule.** -/
theorem run_induction {motive : Pool ε β total workers → Prop} (h : motive pool)
    (hkeep : ∀ {pool after}, motive pool → Transition work pool after → motive after)
    (schedule : List (Move total workers)) : motive (pool.run work schedule) := by
  induction schedule generalizing pool with
  | nil => exact h
  | cons move schedule ih =>
    have hstep : motive (pool.step work move) := by
      rcases step_eq_or_transition work pool move with heq | htrans
      · rw [heq]
        exact h
      · exact hkeep h htrans
    exact ih hstep

end ImportAtlas.Pool
