import ImportAtlas.Proofs.Path.Names

/-!
# Canonical normal forms

The normal form of a path is canonical: there is one for each movement, it is spelled in one way, and
going up from it takes its last name away. What it is spelled like can be told from the text alone.

## Main definitions

* `Path.IsNormal`: the texts that are spelled like a normal form

## Main results

* `normalize_eq_self_iff`: the texts that are spelled like a normal form are the normal forms
* `parent_normalize_eq`, `normalize_parent_normalize`: the directory of a normal form
* `normalize_canonical`: what makes the normal form canonical
-/

namespace ImportAtlas.Path

open Text Movement

variable {path : String}

/-! ## Texts spelled like a normal form -/

/-- A text that is spelled like a normal form: no backslash, no segment that is empty or stays in the
directory, and climbs in front of the names only. The empty text has no segments at all. -/
structure IsNormal (text : String) : Prop where
  backslash_not_mem : '\\' ∉ text.toList
  isStep : text ≠ "" → ∀ segment ∈ segments text.toList, IsStep segment
  climbsFirst : ∃ climbs names,
    segments text.toList = List.replicate climbs up ++ names ∧ up ∉ names

theorem segments_normalize (hne : normalize path ≠ "") :
    segments (normalize path).toList = steps path := by
  have hsteps : steps path ≠ [] := by
    intro hnil
    rw [normalize_eq_ofNames, hnil] at hne
    exact hne rfl
  rw [normalize_eq_ofNames, toList_ofNames]
  refine split_join isSeparator_slash hsteps ?_
  intro segment hs c hc
  exact sep_eq_false_of_mem_split (mem_collapse hs).1 hc

theorem backslash_not_mem_normalize (path : String) : '\\' ∉ (normalize path).toList := by
  rw [normalize_eq_ofNames, toList_ofNames]
  intro hmem
  rcases mem_of_mem_join hmem with hbetween | ⟨segment, hs, hc⟩
  · exact absurd (List.mem_singleton.mp hbetween) (by decide)
  · have hsep := sep_eq_false_of_mem_split (mem_collapse hs).1 hc
    exact Bool.noConfusion hsep

theorem isNormal_normalize (path : String) : IsNormal (normalize path) where
  backslash_not_mem := backslash_not_mem_normalize path
  isStep := by
    intro hne segment hs
    rw [segments_normalize hne] at hs
    exact (mem_collapse hs).2
  climbsFirst := by
    by_cases hne : normalize path = ""
    · rw [hne]
      exact ⟨0, [[]], rfl, by decide⟩
    · refine ⟨(movement path).climbed, (movement path).descended, ?_, movement_mem_proper path⟩
      rw [segments_normalize hne, steps_eq]
      rfl

/-- A text without backslashes is split at its slashes. -/
theorem join_segments {text : List Char} (h : '\\' ∉ text) : join ['/'] (segments text) = text := by
  have hsplit : segments text = split (· == '/') text := by
    unfold segments
    induction text with
    | nil => rfl
    | cons c text ih =>
      obtain ⟨hc, htext⟩ := List.ne_and_not_mem_of_not_mem_cons h
      have hsep : isSeparator c = (c == '/') := by
        simp [isSeparator, hc.symm]
      rw [split, split, ih htext, hsep]
  rw [hsplit, join_split]

/-- **The texts that are spelled like a normal form are the normal forms**, each being its own. -/
theorem normalize_eq_self_iff (text : String) : normalize text = text ↔ IsNormal text := by
  constructor
  · intro h
    exact h ▸ isNormal_normalize text
  · intro h
    by_cases hempty : text = ""
    · subst hempty
      rfl
    · obtain ⟨climbs, names, hsegments, hnames⟩ := h.climbsFirst
      have hsteps : ∀ name ∈ names, IsStep name := by
        intro name hn
        exact h.isStep hempty name (hsegments ▸ List.mem_append_right _ hn)
      have hmovement : movement text = ⟨climbs, names⟩ := by
        have hproper : (⟨climbs, names⟩ : Movement) ∈ proper := hnames
        unfold movement
        rw [hsegments]
        exact prod_steps hproper hsteps
      rw [normalize_eq_ofNames_movement, hmovement]
      change ofNames (List.replicate climbs up ++ names) = text
      rw [← hsegments]
      unfold ofNames
      rw [join_segments h.backslash_not_mem, String.ofList_toList]

/-! ## The directory above -/

/-- **The directory of a normal form** that ends with a name is what one more climb leads to. -/
theorem parent_normalize_eq (hne : normalize path ≠ "")
    (hlast : (segments (normalize path).toList).getLast? ≠ some up) :
    parent (normalize path) = normalize (path ++ "/..") := by
  rw [segments_normalize hne, steps_eq] at hlast
  rw [parent_normalize, normalize_eq_ofNames_movement (path ++ "/.."), movement_append_up]
  unfold directories
  rw [steps_eq]
  have hproper := movement_mem_proper path
  rw [normalize_eq_ofNames_movement] at hne
  generalize movement path = whole at hne hlast hproper ⊢
  obtain ⟨climbed, descended⟩ := whole
  -- Without a name the normal form would be empty or end with a climb.
  rcases descended.eq_nil_or_concat' with rfl | ⟨before, last, rfl⟩
  · cases climbed with
    | zero => exact absurd rfl hne
    | succ climbed => simp [Movement.steps, List.replicate_succ'] at hlast
  · simp [Movement.steps, ascent, ← List.append_assoc]

theorem isName_of_mem_descended {name : List Char} (h : name ∈ (movement path).descended) :
    IsName name := by
  have hmem : name ∈ steps path := by
    rw [steps_eq]
    exact List.mem_append_right _ h
  refine ⟨(mem_collapse hmem).2, ?_, fun c hc => sep_eq_false_of_mem_split (mem_collapse hmem).1 hc⟩
  rintro rfl
  exact movement_mem_proper path h

/-- A movement without its last segment, which is a climb if nothing is descended. -/
theorem exists_steps_eq_dropLast {whole : Movement} (h : whole ∈ proper) :
    ∃ shorter ∈ proper, shorter.steps = whole.steps.dropLast ∧
      shorter.descended ⊆ whole.descended := by
  obtain ⟨climbed, descended⟩ := whole
  rcases descended.eq_nil_or_concat' with rfl | ⟨before, last, rfl⟩
  · refine ⟨⟨climbed - 1, []⟩, List.not_mem_nil, ?_, List.nil_subset _⟩
    simp [Movement.steps]
  · have hsubset := List.subset_append_left before [last]
    refine ⟨⟨climbed, before⟩, fun hup => h (hsubset hup), ?_, hsubset⟩
    simp [Movement.steps, ← List.append_assoc]

/-- The directory of a normal form is in normal form. -/
theorem normalize_parent_normalize (path : String) :
    normalize (parent (normalize path)) = parent (normalize path) := by
  obtain ⟨shorter, hproper, hsteps, hsubset⟩ :=
    exists_steps_eq_dropLast (movement_mem_proper path)
  have hparent : parent (normalize path) = ofNames shorter.steps := by
    rw [parent_normalize, hsteps, ← steps_eq]
    rfl
  rw [hparent, normalize_eq_ofNames_movement, movement_ofNames hproper]
  intro name hn
  exact isName_of_mem_descended (hsubset hn)

/-! ## Canonicity -/

/-- **The normal form is canonical.** It is spelled with single slashes and with climbs in front only;
it does not change when it is taken again, be it of the whole or of the parts of a path; it tells apart
exactly the paths that denote different movements; and going up from it takes its last name away. -/
theorem normalize_canonical :
    (∀ path, IsNormal (normalize path)) ∧
    (∀ path, normalize (normalize path) = normalize path) ∧
    (∀ dir rest, normalize (dir ++ "/" ++ rest) = normalize (normalize dir ++ "/" ++ normalize rest)) ∧
    (∀ path other, normalize path = normalize other ↔ movement path = movement other) ∧
    ∀ path, normalize path ≠ "" → (segments (normalize path).toList).getLast? ≠ some up →
      parent (normalize path) = normalize (path ++ "/..") := by
  refine ⟨isNormal_normalize, ?_, ?_, normalize_eq_normalize_iff, ?_⟩
  · intro path
    exact (normalize_eq_self_iff _).mpr (isNormal_normalize path)
  · intro dir rest
    rw [normalize_eq_normalize_iff, movement_append_slash, movement_append_slash,
      movement_normalize, movement_normalize]
  · intro path hne hlast
    exact parent_normalize_eq hne hlast

/-- Two ways to the directory `pkg` next to the start, one of them through a name that is taken back
before the start is left, and the directory that holds both. -/
theorem normalize_canonical_above_start :
    movement "web/.\\../..//pkg" = ⟨1, ["pkg".toList]⟩ ∧
      normalize "web/.\\../..//pkg" = normalize "..\\lib/../pkg/" ∧
      normalize "web/.\\../..//pkg" ≠ "" ∧
      (segments (normalize "web/.\\../..//pkg").toList).getLast? ≠ some up ∧
      parent (normalize "web/.\\../..//pkg") = normalize "web/.\\../..//pkg/.." ∧
      normalize "web/.\\../..//pkg/.." = ".." := by
  obtain ⟨-, -, -, hiff, hparent⟩ := normalize_canonical
  have hne : normalize "web/.\\../..//pkg" ≠ "" := by decide
  have hlast : (segments (normalize "web/.\\../..//pkg").toList).getLast? ≠ some up := by decide
  exact ⟨by decide, (hiff _ _).mpr (by decide), hne, hlast, hparent _ hne hlast, by decide⟩

end ImportAtlas.Path
