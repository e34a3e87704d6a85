/-!
# Computations that succeed

A sequence of computations succeeds if each of its parts does, and a change of errors keeps the
successes. If one of them fails, the error of the first that does is the error of the whole. Every
check and every stage of the project is taken apart by these rules.

## Main definitions

* `fault?`: the error of a computation

## Main results

* `bind_eq_ok_iff`, `map_eq_ok_iff`, `check_bind_eq_ok_iff`, `mapError_eq_ok_iff`,
  `forM_eq_ok_iff`, `refuse_eq_ok_iff`: when a composed computation succeeds
* `fault?_bind`, `fault?_mapError`, `fault?_forM`: the error of a composed computation
* `exists_map_eq_map_ok_iff`: when a computation succeeds on every value of a list
-/

namespace ImportAtlas.Outcome

variable {ε ε' α β : Type}

theorem bind_eq_ok_iff {first : Except ε α} {next : α → Except ε β} {result : β} :
    (first >>= next) = .ok result ↔ ∃ value, first = .ok value ∧ next value = .ok result := by
  cases first <;> simp [bind, Except.bind]

theorem map_eq_ok_iff {f : α → β} {outcome : Except ε α} {result : β} :
    f <$> outcome = .ok result ↔ ∃ value, outcome = .ok value ∧ f value = result := by
  cases outcome <;> simp [Functor.map, Except.map]

/-- A check before a computation. -/
theorem check_bind_eq_ok_iff {check : Except ε Unit} {next : Unit → Except ε β} {result : β} :
    (check >>= next) = .ok result ↔ check = .ok () ∧ next () = .ok result := by
  rw [bind_eq_ok_iff]
  constructor
  · rintro ⟨⟨⟩, hcheck, hnext⟩
    exact ⟨hcheck, hnext⟩
  · rintro ⟨hcheck, hnext⟩
    exact ⟨(), hcheck, hnext⟩

theorem mapError_eq_ok_iff {change : ε → ε'} {outcome : Except ε α} {result : α} :
    outcome.mapError change = .ok result ↔ outcome = .ok result := by
  cases outcome with
  | error e =>
    constructor
    · intro h
      cases h
    · intro h
      cases h
  | ok value =>
    constructor
    · intro h
      obtain rfl := Except.ok.inj h
      rfl
    · intro h
      obtain rfl := Except.ok.inj h
      rfl

theorem forM_eq_ok_iff (check : α → Except ε Unit) (values : List α) :
    values.forM check = .ok () ↔ ∀ value ∈ values, check value = .ok () := by
  induction values with
  | nil => simp [pure, Except.pure]
  | cons value values ih =>
    rw [List.forall_mem_cons, ← ih, List.forM_eq_forM, List.forM_cons, check_bind_eq_ok_iff]

/-- A computation that a condition refuses. -/
theorem refuse_eq_ok_iff {p : Prop} [Decidable p] {e : ε} {next : Except ε β} {result : β} :
    (if p then throw e else next) = .ok result ↔ ¬p ∧ next = .ok result := by
  by_cases hp : p
  · rw [if_pos hp]
    exact iff_of_false (fun h => nomatch h) fun h => h.1 hp
  · rw [if_neg hp, and_iff_right hp]

theorem refuse_bind_eq_ok_iff {p : Prop} [Decidable p] {e : ε} {later : α → Except ε β}
    {next : Except ε β} {result : β} :
    (if p then throw e >>= later else next) = .ok result ↔ ¬p ∧ next = .ok result :=
  refuse_eq_ok_iff

/-- The error of a computation, if it fails. -/
def fault? : Except ε α → Option ε
  | .error e => some e
  | .ok _ => none

theorem eq_error_iff {outcome : Except ε α} {e : ε} : outcome = .error e ↔ fault? outcome = some e := by
  cases outcome <;> simp [fault?]

theorem eq_ok_iff {outcome : Except ε Unit} : outcome = .ok () ↔ fault? outcome = none := by
  cases outcome <;> simp [fault?]

@[simp] theorem fault?_mapError (change : ε → ε') (outcome : Except ε α) :
    fault? (outcome.mapError change) = (fault? outcome).map change := by
  cases outcome <;> rfl

/-- What is made of a result does not fail. -/
@[simp] theorem fault?_bind_pure (first : Except ε α) (f : α → β) :
    fault? (first >>= fun value => pure (f value)) = fault? first := by
  cases first <;> rfl

/-- The first computation comes first. What the second one does has to be known for the results of the
first one only. -/
theorem fault?_bind {first : Except ε α} {next : α → Except ε β} {later : Option ε}
    (h : ∀ value, first = .ok value → fault? (next value) = later) :
    fault? (first >>= next) = (fault? first).or later := by
  cases first with
  | error e => rfl
  | ok value => exact h value rfl

/-- The first value that a check fails on counts. -/
theorem fault?_forM (check : α → Except ε Unit) (values : List α) :
    fault? (values.forM check) = values.findSome? fun value => fault? (check value) := by
  induction values with
  | nil => rfl
  | cons value values ih =>
    have hstep : (value :: values).forM check = check value >>= fun _ => values.forM check := rfl
    rw [hstep, fault?_bind fun _ _ => ih, List.findSome?_cons]
    cases fault? (check value) <;> rfl

theorem exists_map_eq_map_ok_iff {f : α → Except ε β} {values : List α} :
    (∃ results : List β, values.map f = results.map .ok) ↔
      ∀ value ∈ values, ∃ result, f value = .ok result := by
  constructor
  · rintro ⟨results, h⟩ value hv
    have hmem : f value ∈ results.map .ok := h ▸ List.mem_map_of_mem hv
    obtain ⟨result, -, heq⟩ := List.mem_map.mp hmem
    exact ⟨result, heq.symm⟩
  · intro h
    induction values with
    | nil => exact ⟨[], rfl⟩
    | cons value values ih =>
      obtain ⟨result, hresult⟩ := h value List.mem_cons_self
      obtain ⟨results, hresults⟩ := ih fun other ho => h other (List.mem_cons_of_mem _ ho)
      exact ⟨result :: results, by rw [List.map_cons, List.map_cons, hresult, hresults]⟩

end ImportAtlas.Outcome
