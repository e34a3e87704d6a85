import ImportAtlas.Proofs.Path.Movement
import Mathlib.Data.List.Infix
import Mathlib.Data.List.TakeWhile
import Mathlib.Logic.Function.Iterate

/-!
# Paths as lists of names

A normal form that does not climb is a list of names with slashes between them. Its directory is the
list without the last name, and a path from there that goes up and then down takes back names from the
end and adds its own. A climb past the first name is kept as a climb, and so leaves the start.

## Main definitions

* `Path.steps`, `Path.directories`: the segments of a normal form, and those of its directory
* `Path.IsInside`: the paths that do not leave the start
* `Path.IsName`: the segments that lead down
* `Path.ofNames`: the path of a list of names
* `Path.ascend`: a path that goes up some levels and then down along names

## Main results

* `steps_eq`, `movement_ofNames`: names as the movements that they spell out, and back
* `isName_of_mem_steps`: the segments of a path that does not leave the start are names
* `iterate_parent_ofNames`: the directories above a directory
* `under_eq_ofNames`, `under_ofNames_ofNames`, `under_ofNames_ascend`: paths from a directory
* `climbs_ofNames_up`, `climbs_of_append`: the texts that start with two dots
-/

namespace ImportAtlas.Path

open Text Movement

/-- The segments of the normal form of a path. -/
def steps (path : String) : List (List Char) :=
  collapse (segments path.toList)

/-- The directories that a file lies in, from the top: all segments but the last. -/
def directories (path : String) : List (List Char) :=
  (steps path).dropLast

/-- Whether a path stays at or below the start: the first segment of its normal form is not `..`. -/
def IsInside (path : String) : Prop :=
  (steps path).head? ≠ some up

instance (path : String) : Decidable (IsInside path) :=
  inferInstanceAs (Decidable ((steps path).head? ≠ some up))

/-- A segment that leads down. -/
structure IsName (segment : List Char) : Prop where
  isStep : IsStep segment
  ne_up : segment ≠ up
  isSeparator_eq : ∀ c ∈ segment, isSeparator c = false

instance (segment : List Char) : Decidable (IsName segment) :=
  decidable_of_iff ((segment ≠ [] ∧ segment ≠ here) ∧ segment ≠ up ∧ !segment.any isSeparator)
    ⟨fun ⟨hstep, hup, hsep⟩ => ⟨hstep, hup, by simpa using hsep⟩,
      fun ⟨hstep, hup, hsep⟩ => ⟨hstep, hup, by simpa using hsep⟩⟩

/-- The path of some names, one below the other. -/
def ofNames (names : List (List Char)) : String :=
  String.ofList (join ['/'] names)

/-- The path that starts from the directory itself, goes up some levels and then down. -/
def ascend (levels : Nat) (names : List (List Char)) : String :=
  String.ofList ("./".toList ++ (List.replicate levels "../".toList).flatten ++ join ['/'] names)

variable {names dirs : List (List Char)} {name : List Char} {path : String}

theorem normalize_eq_ofNames (path : String) : normalize path = ofNames (steps path) := rfl

theorem toList_ofNames (names : List (List Char)) : (ofNames names).toList = join ['/'] names :=
  String.toList_ofList

theorem ofNames_eq_empty_iff (h : ∀ name ∈ names, name ≠ []) : ofNames names = "" ↔ names = [] := by
  constructor
  · intro hempty
    cases names with
    | nil => rfl
    | cons name names =>
      have hjoin : join ['/'] (name :: names) = [] := by
        rw [← toList_ofNames, hempty]
        rfl
      cases names with
      | nil => exact absurd hjoin (h name List.mem_cons_self)
      | cons second names => simp [join_cons] at hjoin
  · rintro rfl
    rfl

theorem ofNames_concat (hne : names ≠ []) (name : List Char) :
    ofNames (names ++ [name]) = ofNames names ++ String.ofList ('/' :: name) := by
  unfold ofNames
  rw [join_concat hne, List.append_assoc, List.singleton_append, String.ofList_append]

/-! ## The segments of a normal form -/

theorem steps_eq (path : String) : steps path = (movement path).steps :=
  collapse_segments path

theorem normalize_eq_ofNames_movement (path : String) :
    normalize path = ofNames (movement path).steps :=
  normalize_eq_join_steps path

/-- A path that does not leave the start descends only. -/
theorem steps_eq_descended (h : IsInside path) : steps path = (movement path).descended := by
  unfold IsInside at h
  rw [steps_eq] at h ⊢
  generalize movement path = whole at h ⊢
  obtain ⟨climbed, descended⟩ := whole
  cases climbed with
  | zero => rfl
  | succ climbed => exact absurd rfl h

theorem up_not_mem_steps (h : IsInside path) : up ∉ steps path := by
  rw [steps_eq_descended h]
  exact movement_mem_proper path

/-- **The segments of a path that does not leave the start are names.** -/
theorem isName_of_mem_steps (h : IsInside path) (hname : name ∈ steps path) : IsName name where
  isStep := (mem_collapse hname).2
  ne_up := fun hu => up_not_mem_steps h (hu ▸ hname)
  isSeparator_eq := fun _ hc => sep_eq_false_of_mem_split (mem_collapse hname).1 hc

theorem isName_of_mem_directories (h : IsInside path) (hname : name ∈ directories path) :
    IsName name :=
  isName_of_mem_steps h (List.mem_of_mem_dropLast hname)

/-- No segment of a normal form has a slash. -/
theorem slash_not_mem_of_mem_steps (hname : name ∈ steps path) : '/' ∉ name := by
  intro hslash
  have hsep := sep_eq_false_of_mem_split (mem_collapse hname).1 hslash
  exact Bool.noConfusion hsep

/-! ## The directory above -/

theorem parentChars_append {rest : List Char} (h : '/' ∉ rest) (dir : List Char) :
    parentChars (dir ++ '/' :: rest) = dir := by
  have hrest : ∀ c ∈ rest.reverse, (c != '/') = true := by
    intro c hc
    exact bne_iff_ne.mpr fun he => h (he ▸ List.mem_reverse.mp hc)
  unfold parentChars
  rw [List.reverse_append, List.reverse_cons, List.append_assoc, List.singleton_append,
    List.dropWhile_append_of_pos hrest]
  exact List.reverse_reverse dir

theorem parentChars_eq_nil {text : List Char} (h : '/' ∉ text) : parentChars text = [] := by
  have htext : text.reverse.dropWhile (· != '/') = [] := by
    refine List.dropWhile_eq_nil_iff.mpr fun c hc => ?_
    exact bne_iff_ne.mpr fun he => h (he ▸ List.mem_reverse.mp hc)
  unfold parentChars
  rw [htext]
  rfl

/-- **The directory of a path of names** lacks the last of them. -/
theorem parent_ofNames (h : ∀ name ∈ names, '/' ∉ name) :
    parent (ofNames names) = ofNames names.dropLast := by
  unfold parent
  rw [toList_ofNames]
  obtain rfl | ⟨before, last, rfl⟩ := names.eq_nil_or_concat'
  · rfl
  · have hlast := h last (List.mem_append_right _ List.mem_cons_self)
    rw [List.dropLast_concat]
    by_cases hbefore : before = []
    · subst hbefore
      exact congrArg String.ofList (parentChars_eq_nil hlast)
    · rw [join_concat hbefore, List.append_assoc, List.singleton_append, parentChars_append hlast]
      rfl

theorem iterate_parent_ofNames (h : ∀ name ∈ names, '/' ∉ name) (levels : Nat) :
    parent^[levels] (ofNames names) = ofNames (names.take (names.length - levels)) := by
  induction levels generalizing names with
  | zero => rw [Function.iterate_zero_apply, Nat.sub_zero, List.take_length]
  | succ levels ih =>
    have hlength : min (names.length - 1 - levels) (names.length - 1) =
        names.length - (levels + 1) := by omega
    rw [Function.iterate_succ_apply, parent_ofNames h,
      ih fun name hn => h name (List.mem_of_mem_dropLast hn), List.length_dropLast,
      List.dropLast_eq_take, List.take_take, hlength]

theorem parent_normalize (path : String) : parent (normalize path) = ofNames (directories path) :=
  parent_ofNames fun _ => slash_not_mem_of_mem_steps

/-! ## Paths from a directory -/

/-- **A movement that is spelled out** as a path is the movement of the path. -/
theorem movement_ofNames {whole : Movement} (h : whole ∈ proper)
    (hnames : ∀ name ∈ whole.descended, IsName name) : movement (ofNames whole.steps) = whole := by
  by_cases hnil : whole.steps = []
  · obtain ⟨hclimbed, hdescended⟩ := List.append_eq_nil_iff.mp hnil
    rw [hnil]
    ext1
    · exact (List.replicate_eq_nil_iff up |>.mp hclimbed).symm
    · exact hdescended.symm
  · have hsep : ∀ segment ∈ whole.steps, ∀ c ∈ segment, isSeparator c = false := by
      intro segment hs
      rcases List.mem_append.mp hs with hs | hs
      · rw [List.eq_of_mem_replicate hs]
        exact List.forall_mem_cons.mpr ⟨rfl, List.forall_mem_singleton.mpr rfl⟩
      · exact (hnames segment hs).isSeparator_eq
    unfold movement segments
    rw [toList_ofNames, split_join isSeparator_slash hnil hsep]
    exact prod_steps h fun name hn => (hnames name hn).isStep

theorem movement_ofNames_names (h : ∀ name ∈ names, IsName name) :
    movement (ofNames names) = ⟨0, names⟩ := by
  have hproper : (⟨0, names⟩ : Movement) ∈ proper := fun hup => (h up hup).ne_up rfl
  exact @movement_ofNames ⟨0, names⟩ hproper h

/-- Each level up is one climb. -/
theorem movement_ups (levels : Nat) (rest : List Char) :
    movement (String.ofList ((List.replicate levels "../".toList).flatten ++ rest)) =
      ascent ^ levels * movement (String.ofList rest) := by
  induction levels with
  | zero => exact (one_mul _).symm
  | succ levels ih =>
    rw [List.replicate_succ, List.flatten_cons, List.append_assoc, pow_succ', mul_assoc, ← ih]
    exact movement_append_cons isSeparator_slash up _

theorem movement_ascend (h : ∀ name ∈ names, IsName name) (levels : Nat) :
    movement (ascend levels names) = ⟨levels, names⟩ := by
  have hdown : movement (String.ofList (join ['/'] names)) = ⟨0, names⟩ :=
    movement_ofNames_names h
  have hhere : movement (ascend levels names) =
      movement (String.ofList ((List.replicate levels "../".toList).flatten ++ join ['/'] names)) := by
    unfold ascend
    rw [List.append_assoc]
    exact (movement_append_cons isSeparator_slash here _).trans (one_mul _)
  rw [hhere, movement_ups, hdown, ascent_pow]
  ext1 <;> simp

/-- **A path from a directory** spells out both movements in a row. -/
theorem under_eq_ofNames (dir rest : String) :
    under dir rest = ofNames (movement dir * movement rest).steps := by
  rw [← normalize_under, normalize_eq_ofNames_movement, movement_under]

/-- **Names below a directory.** -/
theorem under_ofNames_ofNames (hdirs : ∀ name ∈ dirs, IsName name)
    (hnames : ∀ name ∈ names, IsName name) :
    under (ofNames dirs) (ofNames names) = ofNames (dirs ++ names) := by
  rw [under_eq_ofNames, movement_ofNames_names hdirs, movement_ofNames_names hnames]
  simp [Movement.steps]

/-- **Going up from a directory and then down.** The climbs past the top are left in front. -/
theorem under_ofNames_ascend (hdirs : ∀ name ∈ dirs, IsName name)
    (hnames : ∀ name ∈ names, IsName name) (levels : Nat) :
    under (ofNames dirs) (ascend levels names) =
      ofNames (dirs.take (dirs.length - levels) ++
        (List.replicate (levels - dirs.length) up ++ names)) := by
  rw [under_eq_ofNames, movement_ofNames_names hdirs, movement_ascend hnames]
  unfold Movement.steps
  -- Either no climb leaves the start, or no directory is left.
  rcases Nat.le_total levels dirs.length with hle | hle <;> simp [Nat.sub_eq_zero_of_le hle]

/-! ## Climbing -/

theorem climbs_eq_true_iff {text : String} :
    climbs text = true ↔ ∃ rest, text.toList = '.' :: '.' :: rest := by
  unfold climbs
  rw [List.isPrefixOf_iff_prefix]
  exact exists_congr fun rest => eq_comm

theorem climbs_ofNames_up (names : List (List Char)) : climbs (ofNames (up :: names)) = true := by
  rw [climbs_eq_true_iff, toList_ofNames]
  cases names with
  | nil => exact ⟨[], rfl⟩
  | cons name names => exact ⟨_, List.append_assoc _ _ _⟩

/-- A text that starts with two dots still does so without what has been added to its end, unless less
than both dots is left. -/
theorem climbs_of_append {text rest : String} (h : climbs (text ++ rest) = true) (hne : text ≠ "")
    (hdot : text ≠ ".") : climbs text = true := by
  obtain ⟨later, hlater⟩ := climbs_eq_true_iff.mp h
  rw [String.toList_append] at hlater
  have htext : text = String.ofList text.toList := String.ofList_toList.symm
  cases hchars : text.toList with
  | nil => exact absurd (htext.trans (congrArg String.ofList hchars)) hne
  | cons first others =>
    rw [hchars, List.cons_append, List.cons.injEq] at hlater
    obtain ⟨rfl, hothers⟩ := hlater
    cases others with
    | nil => exact absurd (htext.trans (congrArg String.ofList hchars)) hdot
    | cons second others =>
      obtain ⟨rfl, -⟩ := List.cons.inj hothers
      exact climbs_eq_true_iff.mpr ⟨others, hchars⟩

/-- A normal form does not stay in the directory. -/
theorem normalize_ne_here (path : String) : normalize path ≠ "." := by
  intro h
  have hnormal := normalize_normalize path
  rw [h] at hnormal
  exact absurd hnormal (by decide)

/-- A normal form that does not start with two dots does not start with the segment `..`. -/
theorem isInside_of_climbs_eq_false (h : climbs (normalize path) = false) : IsInside path := by
  intro hhead
  obtain ⟨names, hnames⟩ := List.head?_eq_some_iff.mp hhead
  rw [normalize_eq_ofNames, hnames, climbs_ofNames_up] at h
  cases h

end ImportAtlas.Path
