import ImportAtlas.Proofs.Outcome
import ImportAtlas.Proofs.Pool.Closing
import Mathlib.Data.Fintype.Card

/-!
# The outcome does not depend on the schedule

When nothing is left to do, an item waits or has been delivered. If the work goes well everywhere
there has been no failure, so nothing waits, and the results are all there, in the order of the
items. If it fails somewhere the batch has failed, with the failure of an item that was processed.
And at any time the reports count from one up to the number of items that have been processed.

## Main results

* `Invariant.outcome_of_ok`, `Invariant.outcome_of_error`: the outcome when nothing is left to do
* `scheduled_batch`: reports and outcome of a batch under any schedule
* `Workers.processBy_of_ok`: a batch that goes well, worked off to the end
-/

namespace ImportAtlas

variable {α ε β : Type} {total workers : Nat}

namespace Pool

variable {work : Fin total → Except ε β} {pool : Pool ε β total workers} {place : Fin total}

theorem Invariant.updates_eq (h : pool.Invariant work) :
    pool.batch.updates =
      (List.range pool.processed.card).map fun done => .afterFiles (done + 1) total := by
  rw [h.counted.updates_eq, h.counted.length_log]
  rfl

section Ended

variable (h : pool.Invariant work) (he : pool.Ended)

include he

theorem phase_of_ended (place : Fin total) :
    pool.phase place = if place ∈ pool.waiting then .waiting else .delivered := by
  split
  · next hm => exact phase_of_mem_waiting hm
  · next hm =>
    exact phase_of_not_holds hm fun hw => nomatch (he.tasks_eq _).symm.trans hw

theorem phase_of_waiting_eq_nil (hwaiting : pool.waiting = []) (place : Fin total) :
    pool.phase place = .delivered := by
  rw [phase_of_ended he, hwaiting, if_neg List.not_mem_nil]

/-- When nothing is left to do, every item that was taken has been processed. -/
theorem mem_processed_iff (place : Fin total) :
    place ∈ pool.processed ↔ place ∉ pool.waiting := by
  rw [processed, mem_past, phase_of_ended he]
  split
  · next hm => exact ⟨fun hle => absurd hle (by decide), fun hn => absurd hm hn⟩
  · next hm => exact ⟨fun _ => hm, fun _ => by decide⟩

include h

/-- **If the work goes well everywhere, the outcome is all the results in order.** -/
theorem Invariant.outcome_of_ok {value : Fin total → β}
    (hwork : ∀ place, work place = .ok (value place)) :
    pool.waiting = [] ∧ pool.batch.outcome = .ok ((List.finRange total).map value) := by
  have hnone : pool.batch.failure = none := by
    cases hf : pool.batch.failure with
    | none => rfl
    | some e =>
      obtain ⟨place, -, herror⟩ := h.gathered.exists_of_failure hf
      exact nomatch (hwork place).symm.trans herror
  have hwaiting : pool.waiting = [] := he.waiting_eq_or.resolve_right fun ⟨e, hf⟩ =>
    nomatch hnone.symm.trans hf
  have hresults : pool.batch.results.get = fun place => some (value place) := by
    funext place
    rw [h.gathered.results_get, if_pos (phase_of_waiting_eq_nil he hwaiting place), hwork]
    rfl
  refine ⟨hwaiting, ?_⟩
  rw [Batch.outcome, hnone]
  simp [Row.toList_eq_map_get, hresults, List.filterMap_map]

/-- **If the work fails somewhere, the outcome is the failure of an item that was processed.** -/
theorem Invariant.outcome_of_error {e : ε} (herror : work place = .error e) :
    ∃ failed ∈ pool.processed, ∃ first, work failed = .error first ∧
      pool.batch.outcome = .error first := by
  -- Either the failing item has been delivered, or another failure has stopped the batch.
  have hfailure : ∃ first, pool.batch.failure = some first := by
    rcases he.waiting_eq_or with hwaiting | hfailure
    · exact h.gathered.exists_failure (phase_of_waiting_eq_nil he hwaiting place) herror
    · exact hfailure
  obtain ⟨first, hfirst⟩ := hfailure
  obtain ⟨failed, hdelivered, hfailed⟩ := h.gathered.exists_of_failure hfirst
  refine ⟨failed, ?_, first, hfailed, by rw [Batch.outcome, hfirst]⟩
  rw [processed, mem_past, hdelivered]
  decide

end Ended

/-! ## Batches under a schedule -/

theorem invariant_scheduled (f : α → Except ε β) (items : List α)
    (schedule : List (Move items.length workers)) :
    (scheduled f items schedule).Invariant fun place => f (items.get place) :=
  Invariant.start.run schedule

theorem scheduled_append (f : α → Except ε β) (items : List α)
    (schedule more : List (Move items.length workers)) :
    scheduled f items (schedule ++ more) =
      (scheduled f items schedule).run (fun place => f (items.get place)) more :=
  run_append schedule more

/-- A batch that goes well gives all results in the order of the items. -/
theorem outcome_scheduled_of_ok {f : α → Except ε β} {items : List α}
    {schedule : List (Move items.length workers)} (he : (scheduled f items schedule).Ended)
    (hok : ∀ item ∈ items, ∃ value, f item = .ok value) :
    (scheduled f items schedule).processed.card = items.length ∧
      ∃ values, (scheduled f items schedule).batch.outcome = .ok values ∧
        items.map f = values.map .ok := by
  have h := invariant_scheduled f items schedule
  have hplace : ∀ place, ∃ value, f (items.get place) = .ok value := fun place =>
    hok _ (List.get_mem items place)
  choose value hvalue using hplace
  obtain ⟨hwaiting, houtcome⟩ := h.outcome_of_ok he hvalue
  refine ⟨?_, _, houtcome, ?_⟩
  · have hall : (scheduled f items schedule).processed = Finset.univ := by
      ext place
      simp [mem_processed_iff he, hwaiting]
    rw [hall, Finset.card_univ, Fintype.card_fin]
  · calc items.map f
        = ((List.finRange items.length).map items.get).map f := by rw [List.map_get_finRange]
      _ = ((List.finRange items.length).map value).map .ok := by
        rw [List.map_map, List.map_map]
        exact List.map_congr_left fun place _ => hvalue place

/-- **Under every schedule the reports of a batch count from one up to the number of items that have
been processed, and when nothing is left to do the outcome is that of doing the work in order, or
the failure of an item that has been processed.** Every schedule can be continued until nothing is
left to do. -/
theorem scheduled_batch (f : α → Except ε β) (items : List α)
    (schedule : List (Move items.length workers)) :
    let pool := scheduled f items schedule
    pool.batch.updates =
        (List.range pool.processed.card).map (fun done => {
          current := done + 1
          total := items.length
          message :=
            "Analyzed " ++ toString (done + 1) ++ "/" ++ toString items.length ++ " files" }) ∧
      (pool.Ended →
        (∀ place, place ∈ pool.processed ↔ place ∉ pool.waiting) ∧
        ((∀ item ∈ items, ∃ value, f item = .ok value) →
          pool.processed.card = items.length ∧
            ∃ values, pool.batch.outcome = .ok values ∧ items.map f = values.map .ok) ∧
        ((∃ item ∈ items, ∃ e, f item = .error e) →
          ∃ place ∈ pool.processed, ∃ e, f (items.get place) = .error e ∧
            pool.batch.outcome = .error e)) ∧
      ∀ helper, (scheduled f items (schedule ++ pool.closing helper)).Ended := by
  intro pool
  have h : pool.Invariant fun place => f (items.get place) := invariant_scheduled f items schedule
  refine ⟨h.updates_eq, fun he => ⟨mem_processed_iff he, outcome_scheduled_of_ok he, ?_⟩, ?_⟩
  · rintro ⟨item, hitem, e, herror⟩
    obtain ⟨place, rfl⟩ := List.mem_iff_get.mp hitem
    exact h.outcome_of_error he herror
  · intro helper
    rw [scheduled_append]
    exact h.guarded.ended_closing helper

/-- The worker that has taken its item last gets the lock first. The other one fails, and waits for
the lock until it is free. -/
example :
    let half (n : Nat) : Except String Nat := if n % 2 = 0 then .ok (n / 2) else .error "odd"
    let schedule : List (Move 2 2) := [.take 0 0, .take 1 1, .proceed 1, .proceed 1, .proceed 0,
      .proceed 0, .proceed 1, .proceed 1, .proceed 0, .proceed 1, .proceed 0]
    let pool := scheduled half [3, 8] schedule
    pool.lock = some 0 ∧ pool.processed = {1} ∧
      pool.batch.updates.map Progress.message = ["Analyzed 1/2 files"] := by
  decide

end Pool

/-- A batch that is worked off ends under some schedule. -/
theorem Workers.exists_schedule_processBy (workers : Workers) (scheduler : Scheduler)
    (f : α → Except ε β) (items : List α) : ∃ schedule : List (Move items.length workers.count),
      (Pool.scheduled f items schedule).Ended ∧
        workers.processBy scheduler f items =
          ((Pool.scheduled f items schedule).batch.outcome,
            (Pool.scheduled f items schedule).batch.updates) := by
  let opened := Pool.scheduled f items (scheduler items.length workers)
  refine ⟨scheduler items.length workers ++ opened.closing workers.first, ?_⟩
  rw [Pool.scheduled_append]
  exact ⟨(Pool.invariant_scheduled f items _).guarded.ended_closing workers.first, rfl⟩

/-- **A batch that goes well is worked off like a list**, whatever the workers and the schedule. -/
theorem Workers.processBy_of_ok (workers : Workers) (scheduler : Scheduler)
    {f : α → Except ε β} {items : List α} {values : List β} (hok : items.map f = values.map .ok) :
    workers.processBy scheduler f items =
      (.ok values,
        (List.range items.length).map fun done => .afterFiles (done + 1) items.length) := by
  have hforall : ∀ item ∈ items, ∃ value, f item = .ok value :=
    Outcome.exists_map_eq_map_ok_iff.mp ⟨values, hok⟩
  obtain ⟨schedule, he, hprocess⟩ := workers.exists_schedule_processBy scheduler f items
  obtain ⟨hcard, values', houtcome, hvalues⟩ := Pool.outcome_scheduled_of_ok he hforall
  have hsame : values' = values :=
    List.map_injective_iff.mpr (fun _ _ => Except.ok.inj) (hvalues.symm.trans hok)
  rw [hprocess, (Pool.invariant_scheduled f items schedule).updates_eq, houtcome, hcard, hsame]

end ImportAtlas
