import ImportAtlas.Proofs.Path.Normal
import Mathlib.Algebra.BigOperators.Group.List.Basic
import Mathlib.Algebra.Group.Submonoid.BigOperators

/-!
# Paths as movements

A path moves from one directory to another: it climbs some levels above the start, and descends along
names from there. One movement after another is a movement again, since a climb first takes back names
that were descended before it. So movements form a monoid, a path denotes the product of its segments,
and a path written behind another one denotes the product of the two.

The trail of a walk spells out the movement of the segments walked. Hence a normal form says which
movement its path denotes, and says nothing else: two paths have one normal form if and only if they
denote one movement.

## Main definitions

* `Path.Movement`: levels climbed and names descended, with their composition
* `Path.movement`: the movement of a path

## Main results

* `walk_trail`, `foldl_walk_trail`: the trail of a walk, in terms of movements
* `movement_append_slash`, `movement_under`, `under_congr`: paths behind one another
* `normalize_eq_normalize_iff`: normal forms are the same if movements are
-/

namespace ImportAtlas.Path

open Text

/-- A movement from a directory: some levels up, and then down along names. -/
@[ext]
structure Movement where
  /-- The number of levels climbed above the start. -/
  climbed : Nat
  /-- The names descended after that, the upmost first. -/
  descended : List (List Char)
  deriving DecidableEq

namespace Movement

/-! ## Composition -/

/-- One movement after another. What the second one climbs takes back names that the first one has
descended, and goes above the start of the first one when there are none left. -/
instance : Mul Movement where
  mul first second :=
    ⟨first.climbed + (second.climbed - first.descended.length),
      first.descended.take (first.descended.length - second.climbed) ++ second.descended⟩

/-- The movement that stays. -/
instance : One Movement := ⟨⟨0, []⟩⟩

variable (first second third : Movement)

@[simp] theorem climbed_one : (1 : Movement).climbed = 0 := rfl

@[simp] theorem descended_one : (1 : Movement).descended = [] := rfl

@[simp] theorem climbed_mul :
    (first * second).climbed = first.climbed + (second.climbed - first.descended.length) :=
  rfl

@[simp] theorem descended_mul :
    (first * second).descended =
      first.descended.take (first.descended.length - second.climbed) ++ second.descended :=
  rfl

/-- Of three movements in a row, the third one climbs through the names of the second one and then
through those of the first one, whichever two are taken together. -/
instance : Monoid Movement where
  mul_assoc first second third := by
    ext1
    · simp only [climbed_mul, descended_mul, List.length_append, List.length_take]
      omega
    · -- How many names of the first movement are left, and how many of the second one.
      have hfirst : min (min (first.descended.length - second.climbed) first.descended.length +
          second.descended.length - third.climbed) (first.descended.length - second.climbed) =
            first.descended.length -
              (second.climbed + (third.climbed - second.descended.length)) := by omega
      have hsecond : min (first.descended.length - second.climbed) first.descended.length +
          second.descended.length - third.climbed -
            min (first.descended.length - second.climbed) first.descended.length =
              second.descended.length - third.climbed := by omega
      simp only [climbed_mul, descended_mul, List.length_append, List.length_take,
        List.take_append, List.take_take, List.append_assoc, hfirst, hsecond]
  one_mul movement := by
    ext1 <;> simp
  mul_one movement := by
    ext1 <;> simp

/-- The movement that climbs one level. -/
def ascent : Movement := ⟨1, []⟩

/-- The movement of a segment. -/
def ofSegment (segment : List Char) : Movement :=
  if segment = [] ∨ segment = here then 1
  else if segment = up then ascent
  else ⟨0, [segment]⟩

theorem ofSegment_up : ofSegment up = ascent := rfl

theorem ofSegment_of_not_isStep {segment : List Char} (h : ¬IsStep segment) :
    ofSegment segment = 1 := by
  unfold ofSegment
  rw [if_pos (by simpa [IsStep, or_iff_not_imp_left] using h)]

theorem ofSegment_of_ne_up {segment : List Char} (h : IsStep segment) (hu : segment ≠ up) :
    ofSegment segment = ⟨0, [segment]⟩ := by
  unfold ofSegment
  rw [if_neg (not_or.mpr h), if_neg hu]

/-- The movements that descend no climb. -/
def proper : Submonoid Movement where
  carrier := {movement | up ∉ movement.descended}
  one_mem' := List.not_mem_nil
  mul_mem' := by
    intro first second hfirst hsecond hmem
    rcases List.mem_append.mp hmem with hm | hm
    · exact hfirst (List.mem_of_mem_take hm)
    · exact hsecond hm

theorem mem_proper_iff {movement : Movement} : movement ∈ proper ↔ up ∉ movement.descended :=
  Iff.rfl

theorem ofSegment_mem_proper (segment : List Char) : ofSegment segment ∈ proper := by
  by_cases hs : IsStep segment
  · by_cases hu : segment = up
    · subst hu
      exact List.not_mem_nil
    · rw [ofSegment_of_ne_up hs hu, mem_proper_iff, List.mem_singleton]
      exact Ne.symm hu
  · rw [ofSegment_of_not_isStep hs]
    exact one_mem proper

/-! ## Spelling -/

/-- The segments that spell a movement out: its climbs, and then its names. -/
def steps (movement : Movement) : List (List Char) :=
  List.replicate movement.climbed up ++ movement.descended

/-- A proper movement is known from the segments that spell it out. -/
theorem eq_of_steps_eq {movement other : Movement} (h : movement ∈ proper) (ho : other ∈ proper)
    (heq : movement.steps = other.steps) : movement = other := by
  have hcount : ∀ m ∈ proper, m.steps.count up = m.climbed := by
    intro m hm
    unfold steps
    rw [List.count_append, List.count_replicate_self, List.count_eq_zero.mpr hm, Nat.add_zero]
  have hclimbed : movement.climbed = other.climbed := by
    rw [← hcount movement h, ← hcount other ho, heq]
  ext1
  · exact hclimbed
  · unfold steps at heq
    rw [hclimbed] at heq
    exact List.append_cancel_left heq

theorem ascent_pow (levels : Nat) : ascent ^ levels = ⟨levels, []⟩ := by
  induction levels with
  | zero => rfl
  | succ levels ih =>
    rw [pow_succ, ih]
    ext1 <;> simp [ascent]

theorem prod_ofSegment {names : List (List Char)} (hup : up ∉ names)
    (hsteps : ∀ name ∈ names, IsStep name) : (names.map ofSegment).prod = ⟨0, names⟩ := by
  induction names with
  | nil => rfl
  | cons name names ih =>
    obtain ⟨hname, hnames⟩ := List.ne_and_not_mem_of_not_mem_cons hup
    obtain ⟨hfirst, hlater⟩ := List.forall_mem_cons.mp hsteps
    rw [List.map_cons, List.prod_cons, ih hnames hlater, ofSegment_of_ne_up hfirst hname.symm]
    ext1 <;> simp

/-- Segments that spell a movement out denote it. -/
theorem prod_steps {movement : Movement} (h : movement ∈ proper)
    (hsteps : ∀ name ∈ movement.descended, IsStep name) :
    (movement.steps.map ofSegment).prod = movement := by
  unfold steps
  rw [List.map_append, List.prod_append, List.map_replicate, List.prod_replicate, ofSegment_up,
    ascent_pow, prod_ofSegment h hsteps]
  ext1 <;> simp

end Movement

open Movement

/-! ## Walks -/

/-- **One more segment makes the trail of one more movement.** -/
theorem walk_trail {movement : Movement} (h : movement ∈ proper) (segment : List Char) :
    walk movement.steps.reverse segment = (movement * ofSegment segment).steps.reverse := by
  obtain ⟨climbed, descended⟩ := movement
  by_cases hs : IsStep segment
  · by_cases hu : segment = up
    · subst hu
      rw [ofSegment_up]
      -- The latest name is taken back; without one the climb goes on.
      rcases descended.eq_nil_or_concat' with rfl | ⟨before, last, rfl⟩
      · simp only [Movement.steps, ascent, climbed_mul, descended_mul, List.append_nil,
          List.reverse_replicate, List.length_nil, List.take_nil, Nat.sub_zero]
        cases climbed <;> rfl
      · have hlast : last ≠ up := by
          rintro rfl
          exact h (List.mem_append_right before List.mem_cons_self)
        simp only [Movement.steps, ascent, climbed_mul, descended_mul, List.append_nil,
          List.length_append, List.length_singleton, Nat.add_sub_cancel, List.take_left,
          List.reverse_append, List.reverse_singleton, List.cons_append, List.nil_append]
        rw [walk_cons_up hlast, Nat.sub_eq_zero_of_le (Nat.le_add_left 1 _), Nat.add_zero]
    · rw [walk_of_ne_up hs hu, ofSegment_of_ne_up hs hu]
      simp [Movement.steps]
  · rw [walk_of_not_isStep hs, ofSegment_of_not_isStep hs, mul_one]

/-- **The trail of a walk** spells out the movement that it starts with and those of the segments. -/
theorem foldl_walk_trail {movement : Movement} (h : movement ∈ proper)
    (segments : List (List Char)) :
    segments.foldl walk movement.steps.reverse =
      (movement * (segments.map ofSegment).prod).steps.reverse := by
  induction segments generalizing movement with
  | nil => rw [List.foldl_nil, List.map_nil, List.prod_nil, mul_one]
  | cons segment segments ih =>
    have hnext := mul_mem h (ofSegment_mem_proper segment)
    rw [List.foldl_cons, walk_trail h, ih hnext, List.map_cons, List.prod_cons, mul_assoc]

/-! ## The movement of a path -/

/-- The movement of a path: those of its segments, one after the other. -/
def movement (path : String) : Movement :=
  ((segments path.toList).map ofSegment).prod

variable (path : String)

theorem movement_mem_proper : movement path ∈ proper := by
  apply Submonoid.list_prod_mem
  intro part hm
  obtain ⟨segment, -, rfl⟩ := List.mem_map.mp hm
  exact ofSegment_mem_proper segment

/-- The segments that are left of a path spell its movement out. -/
theorem collapse_segments : collapse (segments path.toList) = (movement path).steps := by
  have hwalk := foldl_walk_trail (one_mem proper) (segments path.toList)
  rw [one_mul] at hwalk
  exact (congrArg List.reverse hwalk).trans (List.reverse_reverse _)

/-- **A normal form spells out the movement of its path.** -/
theorem normalize_eq_join_steps :
    normalize path = String.ofList (join ['/'] (movement path).steps) :=
  congrArg (fun segments => String.ofList (join ['/'] segments)) (collapse_segments path)

theorem movement_normalize : movement (normalize path) = movement path := by
  have hsteps : collapse (segments (normalize path).toList) = collapse (segments path.toList) := by
    unfold collapse normalize
    rw [String.toList_ofList, foldl_walk_normalChars]
  rw [collapse_segments, collapse_segments] at hsteps
  exact eq_of_steps_eq (movement_mem_proper _) (movement_mem_proper _) hsteps

/-- **Paths have one normal form if they denote one movement**, and only then. -/
theorem normalize_eq_normalize_iff (path other : String) :
    normalize path = normalize other ↔ movement path = movement other := by
  constructor
  · intro h
    rw [← movement_normalize path, h, movement_normalize]
  · intro h
    rw [normalize_eq_join_steps, h, ← normalize_eq_join_steps]

/-! ## Paths behind one another -/

theorem movement_append_cons {c : Char} (hc : isSeparator c = true) (dir rest : List Char) :
    movement (String.ofList (dir ++ c :: rest)) =
      movement (String.ofList dir) * movement (String.ofList rest) := by
  unfold movement segments
  rw [String.toList_ofList, String.toList_ofList, String.toList_ofList, split_append_cons hc,
    List.map_append, List.prod_append]

/-- **A path behind another one** denotes the movements of both, one after the other. -/
theorem movement_append_slash (dir rest : String) :
    movement (dir ++ "/" ++ rest) = movement dir * movement rest := by
  have htext : dir ++ "/" ++ rest = String.ofList (dir.toList ++ '/' :: rest.toList) := by
    rw [← List.singleton_append, ← List.append_assoc, String.ofList_append, String.ofList_append,
      String.ofList_toList, String.ofList_toList]
  rw [htext, movement_append_cons isSeparator_slash, String.ofList_toList, String.ofList_toList]

theorem movement_under (dir rest : String) :
    movement (under dir rest) = movement dir * movement rest := by
  unfold under
  split
  · next hempty =>
    obtain rfl := String.isEmpty_iff.mp hempty
    rw [movement_normalize]
    exact (one_mul _).symm
  · rw [movement_normalize, movement_append_slash]

theorem movement_up : movement ".." = ascent := rfl

theorem movement_append_up (path : String) : movement (path ++ "/..") = movement path * ascent := by
  rw [← movement_up, ← movement_append_slash, String.append_assoc]
  rfl

/-- What is taken from a directory matters only by its movement. -/
theorem under_congr {dir dir' rest rest' : String}
    (h : movement dir * movement rest = movement dir' * movement rest') :
    under dir rest = under dir' rest' := by
  rw [← normalize_under dir, ← normalize_under dir', normalize_eq_normalize_iff, movement_under,
    movement_under, h]

end ImportAtlas.Path
