import ImportAtlas.Proofs.Search.Order
import Mathlib.Algebra.BigOperators.Group.List.Basic
import Mathlib.Algebra.GroupWithZero.Nat

/-!
# The states that a search goes through

A run goes from state to state, one step at a time, until no frame is left. Whatever steps keep
holds in all of these states.

What a step does is an event: it looks at an arrow, and perhaps enters the place at its head, or it
leaves a place. At any time the events so far, together with those that the frames and the places
not yet discovered still call for, are the same, up to their order. So in the end every place has
been entered once and left once, and every arrow has been looked at once; and as each step takes an
event off what is called for, that is also how many steps there are.

## Main definitions

* `Search.states`, `Search.statesThrough`: the states of a run and of the search through a digraph
* `Event`, `Search.events`: what may happen, and what happens in the next step
* `Search.history`: what happens in a search
* `Search.due`: what is still to happen

## Main results

* `forall_mem_statesThrough`: what steps keep holds in all states
* `step_due`: a step does some of what is due
* `history_perm`: everything happens once
-/

namespace ImportAtlas

/-- What happens in a search. -/
inductive Event (n : Nat) where
  /-- A place is discovered and gets its frame. -/
  | enter (place : Fin n)
  /-- An arrow is looked at. -/
  | look (tail head : Fin n)
  /-- The frame of a place goes. -/
  | leave (place : Fin n)
  deriving DecidableEq

namespace Event

variable {n : Nat}

/-- The place that is entered. -/
def entered? : Event n → Option (Fin n)
  | .enter place => some place
  | .look .. | .leave _ => none

/-- The arrow that is looked at. -/
def arrow? : Event n → Option (Fin n × Fin n)
  | .look tail head => some (tail, head)
  | .enter _ | .leave _ => none

/-- Whether an event is a step; a place is entered in the same step in which the arrow to it is
looked at. -/
def isStep : Event n → Bool
  | .enter _ => false
  | .look .. | .leave _ => true

end Event

namespace Search

variable {n : Nat}

/-! ## States -/

/-- The states of a run, from the one that it starts with to the one without a frame. -/
def states (digraph : Digraph n) (search : Search n) : List (Search n) :=
  match _h : search.step digraph with
  | none => [search]
  | some after => search :: states digraph after
termination_by (search.unseen, search.pending)
decreasing_by
  rcases measure_step _h with h | ⟨h₁, h₂⟩
  · exact Prod.Lex.left _ _ h
  · rw [h₁]
    exact Prod.Lex.right _ h₂

/-- The states of a run from a place; there is no run if the place has been discovered already. -/
def statesFrom (digraph : Digraph n) (search : Search n) (root : Fin n) : List (Search n) :=
  if (search.number.get root).isSome then []
  else states digraph (search.discover digraph root)

/-- The states of the runs from places in turn. -/
def statesAlong (digraph : Digraph n) : Search n → List (Fin n) → List (Search n)
  | _, [] => []
  | search, root :: roots =>
    search.statesFrom digraph root ++ statesAlong digraph (search.runFrom digraph root) roots

/-- The states of the search through the whole digraph. -/
def statesThrough (digraph : Digraph n) : List (Search n) :=
  statesAlong digraph start (List.finRange n)

/-! ## Events -/

/-- What happens in the next step. -/
def events (search : Search n) : List (Event n) :=
  match search.frames with
  | [] => []
  | ⟨place, []⟩ :: _ => [.leave place]
  | ⟨place, successor :: _⟩ :: _ =>
    .look place successor ::
      if (search.number.get successor).isNone then [.enter successor] else []

/-- What happens in the runs from places in turn. -/
def historyAlong (digraph : Digraph n) : Search n → List (Fin n) → List (Event n)
  | _, [] => []
  | search, root :: roots =>
    (if (search.number.get root).isSome then [] else [.enter root]) ++
      (search.statesFrom digraph root).flatMap events ++
      historyAlong digraph (search.runFrom digraph root) roots

/-- What happens in the search through the whole digraph. -/
def history (digraph : Digraph n) : List (Event n) :=
  historyAlong digraph start (List.finRange n)

/-- What is still to happen to a place that has been entered. -/
def toDo (place : Fin n) (rest : List (Fin n)) : List (Event n) :=
  rest.map (.look place) ++ [.leave place]

/-- The places that have not been discovered. -/
def hidden (search : Search n) : List (Fin n) :=
  (List.finRange n).filter fun place => (search.number.get place).isNone

/-- What is still to happen: to the places of the frames, and to those not discovered. -/
def due (digraph : Digraph n) (search : Search n) : List (Event n) :=
  search.frames.flatMap (fun frame => toDo frame.place frame.rest) ++
    search.hidden.flatMap fun place => .enter place :: toDo place (digraph.successors place)

variable {digraph : Digraph n} {search after : Search n} {place : Fin n}

/-! ## What holds in all states -/

theorem run_of_step_eq_none (hs : search.step digraph = none) : run digraph search = search := by
  rw [run]
  split
  · rfl
  · next h => rw [hs] at h; cases h

theorem run_of_step_eq_some (hs : search.step digraph = some after) :
    run digraph search = run digraph after := by
  rw [run]
  split
  · next h => rw [hs] at h; cases h
  · next h => rw [Option.some.inj (hs.symm.trans h)]

/-- The last state of a run is the one that the run ends in. -/
theorem getLast?_states (digraph : Digraph n) (search : Search n) :
    (states digraph search).getLast? = some (run digraph search) := by
  fun_induction states digraph search with
  | case1 search hs => rw [run_of_step_eq_none hs]; rfl
  | case2 search after hs ih =>
    rw [run_of_step_eq_some hs, List.getLast?_cons, ih]
    rfl

/-- The last state of the runs is the one that they end in; without a run it is the first. -/
theorem getLast?_statesAlong (digraph : Digraph n) (search : Search n) (roots : List (Fin n)) :
    (statesAlong digraph search roots).getLast?.getD search =
      roots.foldl (runFrom digraph) search := by
  induction roots generalizing search with
  | nil => rfl
  | cons root roots ih =>
    rw [statesAlong, List.getLast?_append, List.foldl_cons, ← ih]
    unfold statesFrom runFrom
    split
    · rw [List.getLast?_nil, Option.or_none]
    · rw [getLast?_states]
      cases (statesAlong digraph (run digraph (search.discover digraph root)) roots).getLast? <;> rfl

theorem getLast?_statesThrough (digraph : Digraph n) :
    (statesThrough digraph).getLast?.getD start = through digraph :=
  getLast?_statesAlong digraph start (List.finRange n)

/-- What each step keeps holds in all states of a run. -/
theorem forall_mem_states {P : Search n → Prop}
    (hstep : ∀ search after, P search → search.step digraph = some after → P after)
    (h : P search) : ∀ state ∈ states digraph search, P state := by
  fun_induction states digraph search with
  | case1 search hs => exact List.forall_mem_singleton.mpr h
  | case2 search after hs ih => exact List.forall_mem_cons.mpr ⟨h, ih (hstep search after h hs)⟩

/-- What each step keeps, and what holds whenever a run starts, holds in all states of the runs. -/
theorem forall_mem_statesAlong {P : Search n → Prop}
    (hroot : ∀ search root, P search → search.frames = [] → ¬search.Seen root →
      P (search.discover digraph root))
    (hstep : ∀ search after, P search → search.step digraph = some after → P after)
    (roots : List (Fin n)) (h : P search) (hf : search.frames = []) :
    ∀ state ∈ statesAlong digraph search roots, P state := by
  -- Between two runs no frame is left, and the last state of a run is one of its states.
  induction roots generalizing search with
  | nil => exact List.forall_mem_nil _
  | cons root roots ih =>
    rw [statesAlong, List.forall_mem_append]
    by_cases hs : search.Seen root
    · have hfrom : search.statesFrom digraph root = [] := if_pos hs
      have hrun : search.runFrom digraph root = search := if_pos hs
      rw [hfrom, hrun]
      exact ⟨List.forall_mem_nil _, ih h hf⟩
    · have hfrom : search.statesFrom digraph root = states digraph (search.discover digraph root) :=
        if_neg hs
      have hrun : search.runFrom digraph root = run digraph (search.discover digraph root) :=
        if_neg hs
      rw [hfrom, hrun]
      have hall := forall_mem_states hstep (hroot search root h hf hs)
      exact ⟨hall, ih (hall _ (List.mem_of_getLast? (getLast?_states _ _))) frames_run⟩

variable (digraph) in
/-- What holds at the start, whenever a run starts, and is kept by each step holds in all states. -/
theorem forall_mem_statesThrough {P : Search n → Prop} (hstart : P start)
    (hroot : ∀ search root, P search → search.frames = [] → ¬search.Seen root →
      P (search.discover digraph root))
    (hstep : ∀ search after, P search → search.step digraph = some after → P after) :
    ∀ state ∈ statesThrough digraph, P state :=
  forall_mem_statesAlong hroot hstep _ hstart rfl

/-! ## Everything happens once -/

theorem hidden_discover_perm (hn : ¬search.Seen place) :
    (place :: (search.discover digraph place).hidden).Perm search.hidden := by
  have hmem : ∀ (search : Search n) (other : Fin n), other ∈ search.hidden ↔ ¬search.Seen other := by
    intro search other
    simp [hidden, Seen]
  have hnodup : ∀ search : Search n, search.hidden.Nodup := fun search =>
    (List.nodup_finRange n).filter _
  refine (List.perm_ext_iff_of_nodup (List.nodup_cons.mpr ⟨?_, hnodup _⟩) (hnodup _)).mpr ?_
  · rw [hmem, seen_discover, not_not]
    exact .inl rfl
  · intro other
    rw [List.mem_cons, hmem, hmem, seen_discover]
    by_cases he : other = place
    · simp [he, hn]
    · simp [he]

/-- A place that is entered is no longer hidden; the rest of what is due stays. -/
theorem due_discover_perm (hn : ¬search.Seen place) :
    (.enter place :: (search.discover digraph place).due digraph).Perm (search.due digraph) := by
  have hperm : (place :: (search.discover digraph place).hidden).Perm search.hidden :=
    hidden_discover_perm hn
  have hhidden := hperm.flatMap_right
    fun place => Event.enter place :: toDo place (digraph.successors place)
  unfold due
  rw [frames_discover, List.flatMap_cons, List.append_assoc]
  refine .trans ?_ (hhidden.append_left _)
  rw [List.flatMap_cons, List.cons_append]
  refine .trans (.cons _ ?_) List.perm_middle.symm
  exact List.perm_append_comm_assoc ..

/-- What is due depends on the frames and on the numbers alone. -/
theorem due_congr {search' : Search n} (hf : search'.frames = search.frames)
    (hnumber : search'.number = search.number) :
    search'.due digraph = search.due digraph := by
  unfold due hidden
  rw [hf, hnumber]

/-- **A step does some of what is due.** -/
theorem step_due (hs : search.step digraph = some after) :
    (search.events ++ after.due digraph).Perm (search.due digraph) := by
  unfold Search.step at hs
  split at hs
  · cases hs
  · next place outer hf =>
    cases hs
    -- All that is due to the place is that it is left.
    have hafter : (({ search with frames := outer } : Search n).leave digraph place).due digraph =
        due digraph { search with frames := outer } :=
      due_congr (frames_leave digraph _ place) (number_leave digraph _ place)
    rw [hafter]
    simp [events, due, hidden, toDo, hf]
  · next place successor rest outer hf =>
    cases hs
    have hdue : search.due digraph = .look place successor ::
        due digraph { search with frames := ⟨place, rest⟩ :: outer } := by
      simp [due, hidden, toDo, hf]
    rw [hdue]
    unfold Search.look
    split
    · next hnone =>
      have hn : ¬search.Seen successor := not_seen_iff.mpr hnone
      have hevents : search.events = [.look place successor, .enter successor] := by
        simp [events, hf, show search.number.get successor = none from hnone]
      rw [hevents]
      have hn' : ¬Seen { search with frames := ⟨place, rest⟩ :: outer } successor := hn
      exact .cons _ (due_discover_perm hn')
    · next number hsome =>
      have hevents : search.events = [.look place successor] := by
        simp [events, hf, show search.number.get successor = some number from hsome]
      rw [hevents]
      split
      · exact .rfl
      · exact .rfl

theorem events_eq_nil_of_step (hs : search.step digraph = none) : search.events = [] := by
  simp [events, frames_eq_nil_of_step hs]

/-- A run does some of what is due. -/
theorem run_due (digraph : Digraph n) (search : Search n) :
    ((states digraph search).flatMap events ++ (run digraph search).due digraph).Perm
      (search.due digraph) := by
  fun_induction states digraph search with
  | case1 search hs =>
    rw [run_of_step_eq_none hs, List.flatMap_singleton, events_eq_nil_of_step hs, List.nil_append]
  | case2 search after hs ih =>
    rw [run_of_step_eq_some hs, List.flatMap_cons, List.append_assoc]
    exact (ih.append_left _).trans (step_due hs)

/-- Runs from places in turn do some of what is due. -/
theorem historyAlong_due (digraph : Digraph n) (search : Search n) (roots : List (Fin n)) :
    (historyAlong digraph search roots ++
      (roots.foldl (runFrom digraph) search).due digraph).Perm (search.due digraph) := by
  induction roots generalizing search with
  | nil => exact .rfl
  | cons root roots ih =>
    have hrest := ih (search.runFrom digraph root)
    rw [historyAlong, List.foldl_cons, List.append_assoc]
    refine (hrest.append_left _).trans ?_
    unfold statesFrom runFrom
    split
    · exact .rfl
    · next hn =>
      rw [List.append_assoc]
      exact ((run_due digraph _).cons _).trans (due_discover_perm hn)

variable (digraph) in
/-- When the search is over nothing is due. -/
theorem due_through : (through digraph).due digraph = [] := by
  have hhidden : (through digraph).hidden = [] :=
    List.filter_eq_nil_iff.mpr fun place _ => by
      rw [Option.isNone_iff_eq_none, ← not_seen_iff, not_not]
      exact (closed_through digraph place).1
  simp [due, hhidden, (resting_through digraph).frames_eq]

variable (digraph) in
/-- **Everything happens once**: each place is entered and left, and all its arrows are looked at.
-/
theorem history_perm : (history digraph).Perm
    ((List.finRange n).flatMap fun place =>
      .enter place :: toDo place (digraph.successors place)) := by
  have h := historyAlong_due digraph start (List.finRange n)
  have hhidden : (start : Search n).hidden = List.finRange n := by
    simp [hidden]
  have hstart : (start : Search n).due digraph = (List.finRange n).flatMap fun place =>
      .enter place :: toDo place (digraph.successors place) := by
    rw [due, hhidden]
    rfl
  rwa [← through, due_through, List.append_nil, hstart] at h

variable (digraph) in
/-- Each place is entered once. -/
theorem filterMap_entered?_history :
    ((history digraph).filterMap Event.entered?).Perm (List.finRange n) := by
  have h := (history_perm digraph).filterMap Event.entered?
  have htoDo : ∀ place : Fin n,
      (.enter place :: toDo place (digraph.successors place)).filterMap Event.entered? = [place] := by
    intro place
    simp [toDo, Event.entered?, List.filterMap_cons, Function.comp_def]
  rw [List.filterMap_flatMap] at h
  simpa only [htoDo, List.flatMap_singleton'] using h

variable (digraph) in
/-- Each arrow is looked at once. -/
theorem filterMap_arrow?_history : ((history digraph).filterMap Event.arrow?).Perm
    ((List.finRange n).flatMap fun place => (digraph.successors place).map (place, ·)) := by
  have h := (history_perm digraph).filterMap Event.arrow?
  have htoDo : ∀ place : Fin n,
      (.enter place :: toDo place (digraph.successors place)).filterMap Event.arrow? =
        (digraph.successors place).map (place, ·) := by
    intro place
    simp [toDo, Event.arrow?, List.filterMap_cons, Function.comp_def]
  rw [List.filterMap_flatMap] at h
  simpa only [htoDo] using h

/-! ## The number of steps -/

/-- A step is one event, beside the place that it may enter. -/
theorem countP_isStep_events (search : Search n) :
    search.events.countP Event.isStep = if search.frames.isEmpty then 0 else 1 := by
  unfold events
  split
  · next hf => simp [hf]
  · next hf => simp [hf, Event.isStep]
  · next hf =>
    rw [hf]
    split <;> rfl

theorem countP_isStep_flatMap_events (states : List (Search n)) :
    (states.flatMap events).countP Event.isStep = states.countP fun state => !state.frames.isEmpty := by
  induction states with
  | nil => rfl
  | cons state states ih =>
    rw [List.flatMap_cons, List.countP_append, ih, countP_isStep_events, List.countP_cons]
    cases state.frames.isEmpty <;> simp [Nat.add_comm]

theorem countP_isStep_historyAlong (digraph : Digraph n) (search : Search n)
    (roots : List (Fin n)) : (historyAlong digraph search roots).countP Event.isStep =
      (statesAlong digraph search roots).countP fun state => !state.frames.isEmpty := by
  induction roots generalizing search with
  | nil => rfl
  | cons root roots ih =>
    have hroot : ((if (search.number.get root).isSome then [] else [.enter root]) :
        List (Event n)).countP Event.isStep = 0 := by
      split <;> rfl
    rw [historyAlong, statesAlong, List.countP_append, List.countP_append, List.countP_append, hroot,
      ih, countP_isStep_flatMap_events, Nat.zero_add]

variable (digraph) in
/-- **A search takes as many steps as there are places and arrows.** -/
theorem countP_statesThrough :
    ((statesThrough digraph).countP fun state => !state.frames.isEmpty) =
      n + ((List.finRange n).map fun place => (digraph.successors place).length).sum := by
  have htoDo : ∀ place : Fin n,
      (.enter place :: toDo place (digraph.successors place)).countP Event.isStep =
        1 + (digraph.successors place).length := by
    intro place
    simp [toDo, Event.isStep, List.countP_map, Function.comp_def, Nat.add_comm]
  have hcount := (history_perm digraph).countP_eq Event.isStep
  rw [List.countP_flatMap] at hcount
  simp only [Function.comp_def, htoDo] at hcount
  rw [statesThrough, ← countP_isStep_historyAlong, ← history, hcount, List.sum_map_add]
  simp

end Search

end ImportAtlas
