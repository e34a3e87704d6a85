import ImportAtlas.Proofs.Pool.Phase

/-!
# The invariant of a pool

The lock is with the worker that is counting and reporting an item, and with nobody else. So when a
worker reports the count, the item that it has counted is the only one that is counted and not
reported, and the report shows one more than the report before. The results come from the work, and
the batch holds those that have been delivered.

Seen from the items, a transition takes one of them to its next phase, and what becomes of the batch
depends on that phase only. What is counted, reported and delivered is kept track of in these terms,
without a look at the workers.

## Main definitions

* `Pool.Guarded`: who has the lock
* `Pool.MovesOn`: one item goes to its next phase
* `Pool.Counted`, `Pool.Gathered`: what the batch shows of the items
* `Pool.Invariant`: all of it together

## Main results

* `Guarded.eq_of_inside`: no two workers are between getting and giving back the lock
* `Owned.exists_movesOn`: a transition takes one item to its next phase
* `Invariant.transition`, `Invariant.run`: the invariant holds after every schedule
-/

namespace ImportAtlas

variable {ε β : Type} {total workers : Nat}

/-- Whether a worker at a stage has the lock. -/
def Stage.inside : Stage ε β → Bool
  | .entered _ | .counted _ | .reported _ => true
  | .taken | .worked _ | .released _ => false

/-- The result that a worker at a stage has with it. -/
def Stage.result? : Stage ε β → Option (Except ε β)
  | .taken => none
  | .worked result | .entered result | .counted result | .reported result | .released result =>
    some result

namespace Batch

variable {batch : Batch ε β total} {place other : Fin total} {result : Except ε β} {phase : Phase}

/-- The batch when the item of a place has come to a phase. -/
def reach (batch : Batch ε β total) (place : Fin total) (result : Except ε β) :
    Phase → Batch ε β total
  | .counted => batch.count
  | .reported => batch.report
  | .delivered => batch.deliver place result
  | _ => batch

theorem completed_reach : (batch.reach place result phase).completed =
    batch.completed + if phase = .counted then 1 else 0 := by
  cases phase <;> first | rfl | cases result <;> rfl

theorem log_reach : (batch.reach place result phase).log =
    if phase = .reported then .afterFiles batch.completed total :: batch.log else batch.log := by
  cases phase <;> first | rfl | cases result <;> rfl

theorem results_reach : (batch.reach place result phase).results.get other =
    if phase = .delivered ∧ place = other then result.toOption.or (batch.results.get other)
    else batch.results.get other := by
  cases phase with
  | delivered =>
    cases result with
    | ok value =>
      simp only [reach, deliver, Row.get_set, true_and]
      rfl
    | error e => simp [reach, deliver, Except.toOption]
  | _ => simp [reach, count, report]

theorem failure_reach_eq_some_iff {e : ε} :
    (batch.reach place result phase).failure = some e ↔ batch.failure = some e ∨
      phase = .delivered ∧ batch.failure = none ∧ result = .error e := by
  cases phase with
  | delivered =>
    cases result with
    | ok value => simp [reach, deliver]
    | error e' => cases hb : batch.failure <;> simp [reach, deliver, hb]
  | _ => simp [reach, count, report]

end Batch

namespace Pool

variable {work : Fin total → Except ε β} {pool after : Pool ε β total workers}
  {worker other : Fin workers} {place : Fin total} {task : Task ε β total}

section Parts

variable (work : Fin total → Except ε β) (pool : Pool ε β total workers)

/-- The lock is with a worker that is counting or reporting. -/
structure Guarded : Prop where
  lock_eq_iff : ∀ {worker},
    pool.lock = some worker ↔ ∃ task, pool.Holds worker task ∧ task.stage.inside = true

/-- The results come from the work. -/
structure Sound : Prop where
  result_eq : ∀ {worker task result},
    pool.Holds worker task → task.stage.result? = some result → work task.place = result

/-- The batch shows how many items have been counted and reported, and its reports count up. -/
structure Counted : Prop where
  completed_eq : pool.batch.completed = (pool.past .counted).card
  length_log : pool.batch.log.length = (pool.past .reported).card
  updates_eq : pool.batch.updates =
    (List.range pool.batch.log.length).map fun done => .afterFiles (done + 1) total

/-- The batch holds what has been delivered. -/
structure Gathered : Prop where
  results_get : ∀ place, pool.batch.results.get place =
    if pool.phase place = .delivered then (work place).toOption else none
  exists_of_failure : ∀ {e}, pool.batch.failure = some e →
    ∃ place, pool.phase place = .delivered ∧ work place = .error e
  exists_failure : ∀ {place e}, pool.phase place = .delivered → work place = .error e →
    ∃ first, pool.batch.failure = some first

structure Invariant : Prop where
  owned : pool.Owned
  guarded : pool.Guarded
  sound : pool.Sound work
  counted : pool.Counted
  gathered : pool.Gathered work

end Parts

/-! ## The lock -/

/-- **No two workers are between getting and giving back the lock.** -/
theorem Guarded.eq_of_inside (h : pool.Guarded) {task' : Task ε β total}
    (hw : pool.Holds worker task) (hi : task.stage.inside = true)
    (ho : pool.Holds other task') (hi' : task'.stage.inside = true) : worker = other := by
  have hlock : pool.lock = some worker := h.lock_eq_iff.mpr ⟨task, hw, hi⟩
  have hlock' : pool.lock = some other := h.lock_eq_iff.mpr ⟨task', ho, hi'⟩
  exact Option.some.inj (hlock.symm.trans hlock')

theorem Guarded.lock_eq_iff_of_holds (h : pool.Guarded) (hw : pool.Holds worker task) :
    pool.lock = some worker ↔ task.stage.inside = true := by
  rw [h.lock_eq_iff]
  constructor
  · rintro ⟨task', hw', hi⟩
    rwa [hw.eq hw']
  · exact fun hi => ⟨task, hw, hi⟩

theorem Guarded.start : (start : Pool ε β total workers).Guarded where
  lock_eq_iff := by
    intro worker
    constructor
    · exact fun h => nomatch h
    · rintro ⟨task, h, -⟩
      exact absurd h not_holds_start

/-- The lock stays where it belongs if that is so for the worker that has moved. -/
theorem Guarded.advance (h : pool.Guarded) {next : Option (Task ε β total)}
    {lock : Option (Fin workers)} {batch : Batch ε β total}
    (hself : lock = some worker ↔ ∃ task ∈ next, task.stage.inside = true)
    (hothers : ∀ other, worker ≠ other → (lock = some other ↔ pool.lock = some other)) :
    (pool.advance worker next lock batch).Guarded where
  lock_eq_iff := by
    intro other
    show lock = some other ↔ _
    simp only [holds_advance_iff]
    by_cases he : worker = other
    · subst he
      simpa using hself
    · simp only [if_neg he]
      exact (hothers other he).trans h.lock_eq_iff

/-- If the lock does not move, it stays where it belongs with a worker that has as much claim to it
as before. -/
theorem Guarded.advance_of_iff (h : pool.Guarded) {next : Option (Task ε β total)}
    {batch : Batch ε β total} (hw : pool.Holds worker task)
    (hiff : task.stage.inside = true ↔ ∃ task' ∈ next, task'.stage.inside = true) :
    (pool.advance worker next pool.lock batch).Guarded :=
  h.advance ((h.lock_eq_iff_of_holds hw).trans hiff) fun _ _ => Iff.rfl

theorem Guarded.transition (h : pool.Guarded) (ht : Transition work pool after) :
    after.Guarded := by
  cases ht with
  | @take worker place hfree hm =>
    -- Nobody has the lock without a task.
    have hlock : pool.lock ≠ some worker := by
      intro hlock
      obtain ⟨task, hw, -⟩ := h.lock_eq_iff.mp hlock
      exact absurd (hfree.symm.trans hw) (by simp)
    have hadvance : (pool.advance worker (some ⟨place, .taken⟩) pool.lock pool.batch).Guarded :=
      h.advance (by simp [hlock, Stage.inside]) fun _ _ => Iff.rfl
    exact ⟨hadvance.lock_eq_iff⟩
  | work hw => exact h.advance_of_iff hw (by simp [Stage.inside])
  | enter hw hnone =>
    exact h.advance (by simp [Stage.inside]) fun other hne => by simp [hnone, hne]
  | count hw => exact h.advance_of_iff hw (by simp [Stage.inside])
  | report hw => exact h.advance_of_iff hw (by simp [Stage.inside])
  | release hw =>
    have hlock := (h.lock_eq_iff_of_holds hw).mpr rfl
    exact h.advance (by simp [Stage.inside]) fun other hne => by simp [hlock, hne]
  | deliver hw => exact h.advance_of_iff hw (by simp [Stage.inside])

/-! ## The results -/

theorem Sound.start : (start : Pool ε β total workers).Sound work where
  result_eq := fun h => absurd h not_holds_start

theorem Sound.advance (h : pool.Sound work) {next : Option (Task ε β total)}
    {lock : Option (Fin workers)} {batch : Batch ε β total}
    (hnext : ∀ task ∈ next, ∀ result, task.stage.result? = some result →
      work task.place = result) :
    (pool.advance worker next lock batch).Sound work where
  result_eq := by
    intro other task result ho hr
    rw [holds_advance_iff] at ho
    split at ho
    · exact hnext task ho result hr
    · exact h.result_eq ho hr

/-- A worker takes its result along from stage to stage. -/
theorem Sound.carry (h : pool.Sound work) {stage stage' : Stage ε β}
    {lock : Option (Fin workers)} {batch : Batch ε β total}
    (hw : pool.Holds worker ⟨place, stage⟩) (hsame : stage'.result? = stage.result?) :
    (pool.advance worker (some ⟨place, stage'⟩) lock batch).Sound work := by
  refine h.advance fun task ht result hr => ?_
  obtain rfl := Option.some.inj ht
  have hold : stage.result? = some result := hsame.symm.trans hr
  have hresult : work place = result := h.result_eq hw hold
  exact hresult

theorem Sound.transition (h : pool.Sound work) (ht : Transition work pool after) :
    after.Sound work := by
  cases ht with
  | @take worker place _ _ =>
    have hadvance : (pool.advance worker (some ⟨place, .taken⟩) pool.lock pool.batch).Sound work :=
      h.advance (by simp [Stage.result?])
    exact ⟨hadvance.result_eq⟩
  | work hw => exact h.advance (by simp [Stage.result?])
  | enter hw _ => exact h.carry hw rfl
  | count hw => exact h.carry hw rfl
  | report hw => exact h.carry hw rfl
  | release hw => exact h.carry hw rfl
  | deliver hw => exact h.advance (by simp)

/-! ## One item goes to its next phase -/

/-- The item of a place has gone to its next phase, and nothing else has happened. -/
structure MovesOn (work : Fin total → Except ε β) (pool after : Pool ε β total workers)
    (place : Fin total) : Prop where
  not_delivered : pool.phase place ≠ .delivered
  phase_eq : after.phase = Function.update pool.phase place (pool.phase place).next
  batch_eq : after.batch = pool.batch.reach place (work place) (pool.phase place).next

theorem Owned.movesOn_advance (h : pool.Owned) {stage : Stage ε β}
    {next : Option (Task ε β total)} {lock : Option (Fin workers)} {batch : Batch ε β total}
    (hw : pool.Holds worker ⟨place, stage⟩) (hnext : ∀ task ∈ next, task.place = place)
    (hphase : next.elim .delivered (·.stage.phase) = stage.phase.next)
    (hbatch : batch = pool.batch.reach place (work place) stage.phase.next) :
    MovesOn work pool (pool.advance worker next lock batch) place := by
  have hold : pool.phase place = stage.phase := h.phase_of_holds hw
  refine ⟨?_, ?_, ?_⟩
  · rw [hold]
    cases stage <;> exact nofun
  · rw [hold, ← hphase]
    exact h.phase_advance hw hnext
  · rw [hold, ← hbatch]
    rfl

/-- **A transition takes one item to its next phase.** -/
theorem Owned.exists_movesOn (h : pool.Owned) (hs : pool.Sound work)
    (ht : Transition work pool after) : ∃ place, MovesOn work pool after place := by
  cases ht with
  | @take worker place hfree hm =>
    have hold : pool.phase place = .waiting := phase_of_mem_waiting hm
    refine ⟨place, ?_, ?_, ?_⟩
    · rw [hold]
      exact nofun
    · rw [hold]
      exact h.phase_take hfree hm
    · rw [hold]
      rfl
  | work hw => exact ⟨_, h.movesOn_advance hw (by simp) rfl rfl⟩
  | enter hw _ => exact ⟨_, h.movesOn_advance hw (by simp) rfl rfl⟩
  | count hw => exact ⟨_, h.movesOn_advance hw (by simp) rfl rfl⟩
  | report hw => exact ⟨_, h.movesOn_advance hw (by simp) rfl rfl⟩
  | release hw => exact ⟨_, h.movesOn_advance hw (by simp) rfl rfl⟩
  | @deliver _ place result hw =>
    obtain rfl : work place = result := hs.result_eq hw rfl
    exact ⟨_, h.movesOn_advance hw (by simp) rfl rfl⟩

/-! ## The count and the reports -/

theorem phase_start (place : Fin total) :
    (start : Pool ε β total workers).phase place = .waiting :=
  phase_of_mem_waiting (List.mem_finRange place)

theorem past_start {goal : Phase} (h : ¬goal ≤ .waiting) :
    (start : Pool ε β total workers).past goal = ∅ := by
  ext place
  simp [phase_start, h]

theorem Counted.start : (start : Pool ε β total workers).Counted where
  completed_eq := by rw [past_start (by decide)]; rfl
  length_log := by rw [past_start (by decide)]; rfl
  updates_eq := rfl

/-- When an item is counted and not reported, no other one is. -/
theorem Guarded.card_past_counted (h : pool.Guarded) (ho : pool.Owned)
    (hcounted : pool.phase place = .counted) :
    (pool.past .counted).card = (pool.past .reported).card + 1 := by
  have hinside : ∀ {another}, pool.phase another = .counted →
      ∃ worker task, pool.Holds worker task ∧ task.place = another ∧
        task.stage.inside = true := by
    intro another hp
    rcases ho.phase_cases another with ⟨-, he⟩ | ⟨worker, task, hw, rfl, he⟩ | ⟨-, -, he⟩
    · cases he.symm.trans hp
    · refine ⟨worker, task, hw, rfl, ?_⟩
      rw [hp] at he
      cases hs : task.stage <;> rw [hs] at he <;> first | rfl | cases he
    · cases he.symm.trans hp
  have hinsert : pool.past .counted = insert place (pool.past .reported) := by
    ext another
    rw [Finset.mem_insert, mem_past, mem_past, Phase.counted_le_iff]
    refine or_congr_left ⟨fun hp => ?_, fun he => he ▸ hcounted⟩
    -- Two counted items would have two workers inside.
    obtain ⟨worker, task, hw, rfl, hi⟩ := hinside hp
    obtain ⟨other, task', ho', rfl, hi'⟩ := hinside hcounted
    obtain rfl := h.eq_of_inside hw hi ho' hi'
    rw [hw.eq ho']
  rw [hinsert, Finset.card_insert_of_notMem]
  rw [mem_past, hcounted]
  decide

theorem Counted.movesOn (h : pool.Counted) (ho : pool.Owned) (hg : pool.Guarded)
    (hm : MovesOn work pool after place) : after.Counted where
  completed_eq := by
    rw [hm.batch_eq, Batch.completed_reach, card_past_next hm.not_delivered hm.phase_eq,
      h.completed_eq]
  length_log := by
    rw [hm.batch_eq, Batch.log_reach, card_past_next hm.not_delivered hm.phase_eq, ← h.length_log]
    split <;> rfl
  updates_eq := by
    rw [Batch.updates, hm.batch_eq, Batch.log_reach]
    split
    · next hnext =>
      -- The report shows the count, which is one ahead of the reports.
      have hcounted : pool.phase place = .counted := Phase.next_eq_reported_iff.mp hnext
      have hone : pool.batch.completed = pool.batch.log.length + 1 := by
        rw [h.completed_eq, h.length_log, hg.card_past_counted ho hcounted]
      rw [List.reverse_cons, List.length_cons, List.range_succ, List.map_append, hone]
      exact congrArg (· ++ _) h.updates_eq
    · exact h.updates_eq

/-! ## What has been delivered -/

theorem Gathered.start : (start : Pool ε β total workers).Gathered work where
  results_get := by
    intro place
    rw [phase_start, if_neg (by decide)]
    exact Row.get_replicate none place
  exists_of_failure := fun h => nomatch h
  exists_failure := fun h => by simp [phase_start] at h

theorem Gathered.movesOn (h : pool.Gathered work) (hm : MovesOn work pool after place) :
    after.Gathered work where
  results_get := by
    intro another
    rw [hm.batch_eq, Batch.results_reach, hm.phase_eq, Function.update_apply]
    by_cases he : another = place
    · have hnone : pool.batch.results.get place = none := by
        rw [h.results_get, if_neg hm.not_delivered]
      simp [he, hnone]
    · simp only [he, ne_comm.mp he, and_false, if_false]
      exact h.results_get another
  exists_of_failure := by
    intro e he
    rw [hm.batch_eq, Batch.failure_reach_eq_some_iff] at he
    rw [hm.phase_eq]
    rcases he with he | ⟨hnext, -, hwork⟩
    · obtain ⟨another, hp, hwork⟩ := h.exists_of_failure he
      have hne : another ≠ place := fun heq => hm.not_delivered (heq ▸ hp)
      exact ⟨another, by rw [Function.update_of_ne hne, hp], hwork⟩
    · exact ⟨place, by rw [Function.update_self, hnext], hwork⟩
  exists_failure := by
    intro another e hp hwork
    rw [hm.phase_eq, Function.update_apply] at hp
    simp only [hm.batch_eq, Batch.failure_reach_eq_some_iff]
    split at hp
    · next he =>
      subst he
      cases hb : pool.batch.failure with
      | none => exact ⟨e, .inr ⟨hp, rfl, hwork⟩⟩
      | some first => exact ⟨first, .inl rfl⟩
    · obtain ⟨first, hfirst⟩ := h.exists_failure hp hwork
      exact ⟨first, .inl hfirst⟩

/-! ## The invariant -/

theorem Invariant.start : (start : Pool ε β total workers).Invariant work :=
  ⟨.start, .start, .start, .start, .start⟩

/-- **The transitions keep the invariant.** -/
theorem Invariant.transition (h : pool.Invariant work) (ht : Transition work pool after) :
    after.Invariant work := by
  obtain ⟨place, hm⟩ := h.owned.exists_movesOn h.sound ht
  exact ⟨h.owned.transition ht, h.guarded.transition ht, h.sound.transition ht,
    h.counted.movesOn h.owned h.guarded hm, h.gathered.movesOn hm⟩

/-- **The invariant holds after every schedule.** -/
theorem Invariant.run (h : pool.Invariant work) (schedule : List (Move total workers)) :
    (pool.run work schedule).Invariant work :=
  run_induction h Invariant.transition schedule

end Pool

end ImportAtlas
