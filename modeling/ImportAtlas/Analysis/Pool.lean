import ImportAtlas.Analysis.Batch

/-!
# Pools of workers

A pool spreads a batch over workers. A worker without an item takes one that nobody has taken and
does the work. Then it waits for the lock on the count; while it holds the lock, it counts the item
and reports the count. Once it has given the lock back it delivers the result, and is without an
item again. The workers move in any order, each by one of these steps at a time, and only the lock
makes one of them wait for another.

In which order the workers move is up to a schedule. A move that is not possible changes nothing, so
every list of moves is a schedule. A schedule may stop anywhere, and `Pool.closing` is one way to go
on from there until nothing is left to do.

## Main definitions

* `Workers`: the size of a pool
* `Stage`, `Task`: how far a worker has come with the item that it has taken
* `Pool`: the items not taken, the tasks, the lock and the batch
* `Pool.step`, `Pool.run`: one move, and a schedule of moves
* `Pool.closing`: the moves that finish what a schedule leaves
* `Pool.scheduled`: the pool that works on the items of a list
* `Scheduler`, `Workers.processBy`: a batch worked off under a schedule
* `Workers.process`: a batch worked off by the workers taking turns
-/

namespace ImportAtlas

/-- The workers of a pool, of which there is at least one. -/
structure Workers where
  count : Nat
  positive : 0 < count

namespace Workers

/-- The largest number of workers. -/
def most : Nat := 65535

/-- The workers for a number of threads that is asked for, or for the number of processors. -/
def ofThreads (processors : Nat) (threads : Option Nat) : Workers where
  count := min most (max 1 (threads.getD processors))
  positive := by simp only [most]; omega

/-- The worker that every pool has. -/
def first (workers : Workers) : Fin workers.count := ⟨0, workers.positive⟩

end Workers

/-- How far a worker has come with an item. -/
inductive Stage (ε β : Type) where
  /-- The item is taken. -/
  | taken
  /-- The work is done, and the worker waits for the lock. -/
  | worked (result : Except ε β)
  /-- The worker has got the lock. -/
  | entered (result : Except ε β)
  /-- The item is counted. -/
  | counted (result : Except ε β)
  /-- The count is reported. -/
  | reported (result : Except ε β)
  /-- The worker has given the lock back. -/
  | released (result : Except ε β)

/-- An item that a worker has taken and not delivered. -/
structure Task (ε β : Type) (total : Nat) where
  place : Fin total
  stage : Stage ε β

/-- A batch of `total` items on its way through `workers` workers. -/
structure Pool (ε β : Type) (total workers : Nat) where
  /-- The places of the items that nobody has taken. -/
  waiting : List (Fin total)
  /-- The task of each worker. -/
  tasks : Vector (Option (Task ε β total)) workers
  /-- The worker that holds the lock on the count. -/
  lock : Option (Fin workers)
  batch : Batch ε β total

/-- What a worker may do next. -/
inductive Move (total workers : Nat) where
  /-- Take the item of a place. -/
  | take (worker : Fin workers) (place : Fin total)
  /-- Go on with the task. -/
  | proceed (worker : Fin workers)
  deriving DecidableEq, Repr

namespace Pool

variable {ε β : Type} {total workers : Nat}

/-- The pool before any move. -/
def start : Pool ε β total workers :=
  ⟨List.finRange total, Vector.replicate workers none, none, .start⟩

/-- The pool with another task for a worker, or none. -/
def assign (pool : Pool ε β total workers) (worker : Fin workers)
    (task : Option (Task ε β total)) : Pool ε β total workers :=
  { pool with tasks := pool.tasks.set worker task worker.isLt }

/-- The pool after a worker has gone on with its task, where `work` is what is done with the item of
a place. A worker that waits for the lock stays where it is as long as the lock is held. -/
def proceed (work : Fin total → Except ε β) (pool : Pool ε β total workers)
    (worker : Fin workers) (task : Task ε β total) : Pool ε β total workers :=
  match task.stage with
  | .taken => pool.assign worker (some ⟨task.place, .worked (work task.place)⟩)
  | .worked result =>
    if pool.lock.isNone then
      { pool.assign worker (some ⟨task.place, .entered result⟩) with lock := some worker }
    else pool
  | .entered result =>
    { pool.assign worker (some ⟨task.place, .counted result⟩) with batch := pool.batch.count }
  | .counted result =>
    { pool.assign worker (some ⟨task.place, .reported result⟩) with batch := pool.batch.report }
  | .reported result =>
    { pool.assign worker (some ⟨task.place, .released result⟩) with lock := none }
  | .released result =>
    { pool.assign worker none with batch := pool.batch.deliver task.place result }

/-- The pool after a move. A worker with a task takes no item, nobody takes an item that has been
taken, and a worker without a task does not proceed. -/
def step (work : Fin total → Except ε β) (pool : Pool ε β total workers) :
    Move total workers → Pool ε β total workers
  | .take worker place =>
    if (pool.tasks.get worker).isNone && pool.waiting.contains place then
      { pool.assign worker (some ⟨place, .taken⟩) with waiting := pool.waiting.erase place }
    else pool
  | .proceed worker =>
    match pool.tasks.get worker with
    | none => pool
    | some task => pool.proceed work worker task

/-- The pool after a schedule. -/
def run (work : Fin total → Except ε β) (pool : Pool ε β total workers)
    (schedule : List (Move total workers)) : Pool ε β total workers :=
  schedule.foldl (step work) pool

/-- The moves by which a worker finishes a task from any stage on, if the lock is free or its
own. -/
def finishing (worker : Fin workers) : List (Move total workers) :=
  List.replicate 6 (.proceed worker)

/-- The moves by which a worker takes an item and finishes it. -/
def handling (worker : Fin workers) (place : Fin total) : List (Move total workers) :=
  .take worker place :: finishing worker

/-- The moves that finish what is left to do: the worker that holds the lock goes first, the others
follow, and then one of them handles the items that nobody has taken. -/
def closing (pool : Pool ε β total workers) (helper : Fin workers) : List (Move total workers) :=
  (pool.lock.toList ++ List.finRange workers).flatMap finishing ++
    pool.waiting.flatMap (handling helper)

/-- The pool that does `f` with the items of a list, after a schedule. -/
def scheduled {α : Type} (f : α → Except ε β) (items : List α)
    (schedule : List (Move items.length workers)) : Pool ε β items.length workers :=
  start.run (fun place => f (items.get place)) schedule

end Pool

/-- The order in which the workers of a pool move, for pools and batches of any size. -/
abbrev Scheduler := (total : Nat) → (workers : Workers) → List (Move total workers.count)

/-- The workers take turns, and each handles the item that it takes at once. -/
def Scheduler.turns : Scheduler := fun total workers =>
  (List.finRange total).flatMap fun (place : Fin total) =>
    Pool.handling ⟨place.val % workers.count, Nat.mod_lt _ workers.positive⟩ place

/-- The outcome of doing `f` with every item, and the reports made on the way, under a schedule and
what closes it. -/
def Workers.processBy {α ε β : Type} (workers : Workers) (scheduler : Scheduler)
    (f : α → Except ε β) (items : List α) : Except ε (List β) × List Progress :=
  let pool := Pool.scheduled f items (scheduler items.length workers)
  let closed := pool.run (fun place => f (items.get place)) (pool.closing workers.first)
  (closed.batch.outcome, closed.batch.updates)

/-- The outcome of doing `f` with every item, and the reports made on the way. -/
def Workers.process {α ε β : Type} (workers : Workers) (f : α → Except ε β) (items : List α) :
    Except ε (List β) × List Progress :=
  workers.processBy .turns f items

end ImportAtlas
