import ImportAtlas.Proofs.Outcome
import ImportAtlas.Repository.Check

/-!
# Violations in order

All that is wrong with a repository description can be listed in the order in which the description is
gone through: file by file, and in a file a repeated path, a blank path, the classes, each with its
methods, and the functions. The check fails with the first violation of the list, and a description is
valid if the list is empty.

## Main definitions

* `Repository.IsValid` and those of its parts: valid descriptions
* `Repository.violations`: all violations in order, each with its file

## Main results

* `Repository.fault?_check`: the check fails with the first violation
* `Repository.violations_eq_nil_iff`: a description without violations is valid
* `Repository.check_eq_ok_iff_isValid`: the check passes the valid descriptions
-/

namespace ImportAtlas

/-! ## Valid descriptions -/

/-- A function has a name, lines that do not end before they start, and a complexity. -/
structure FunctionDecl.IsValid (f : FunctionDecl) : Prop where
  name : ¬Text.isBlankText f.name
  lines : 1 ≤ f.startLine ∧ f.startLine ≤ f.endLine
  complexity : 1 ≤ f.complexity

/-- A class has a name, lines that do not end before they start, and valid methods. -/
structure ClassDecl.IsValid (c : ClassDecl) : Prop where
  name : ¬Text.isBlankText c.name
  lines : 1 ≤ c.startLine ∧ c.startLine ≤ c.endLine
  methods : ∀ f ∈ c.methods, f.IsValid

/-- The path of a file is not blank, and its classes and functions are valid. -/
structure SourceFile.IsValid (file : SourceFile) : Prop where
  path : ¬Text.isBlankText file.path
  classes : ∀ c ∈ file.classes, c.IsValid
  functions : ∀ f ∈ file.functions, f.IsValid

/-- The paths of a repository are distinct, and its files are valid. -/
structure Repository.IsValid (r : Repository) : Prop where
  distinct : r.paths.Nodup
  files : ∀ file ∈ r.files, file.IsValid

/-! ## Violations -/

/-- What is wrong with the name and the lines of a declaration. -/
def spanFaults (sort : DeclSort) (name : String) (startLine endLine : Nat) : List DeclFault :=
  (if Text.isBlankText name then [.blankName sort] else []) ++
    ((if startLine = 0 ∨ endLine = 0 then [.zeroLine sort name] else []) ++
      if endLine < startLine then [.backwards sort name startLine endLine] else [])

/-- What is wrong with a function. -/
def FunctionDecl.faults (f : FunctionDecl) : List DeclFault :=
  spanFaults .function f.name f.startLine f.endLine ++
    if f.complexity = 0 then [.noComplexity f.name f.complexity] else []

/-- What is wrong with a class and then with its methods. -/
def ClassDecl.faults (c : ClassDecl) : List DeclFault :=
  spanFaults .cls c.name c.startLine c.endLine ++ c.methods.flatMap FunctionDecl.faults

/-- What is wrong with a file after files of the given paths. -/
def SourceFile.violations (file : SourceFile) (earlier : List String) : List Violation :=
  (if file.path ∈ earlier then [.duplicatePath file.path] else []) ++
    ((if Text.isBlankText file.path then [.blankPath] else []) ++
      (file.classes.flatMap ClassDecl.faults ++ file.functions.flatMap FunctionDecl.faults).map
        (.declaration file.path))

/-- What is wrong with files after files of the given paths, each violation with its file. -/
def violationsAfter (earlier : List String) : List SourceFile → List (SourceFile × Violation)
  | [] => []
  | file :: files =>
    (file.violations earlier).map (file, ·) ++ violationsAfter (file.path :: earlier) files

/-- All that is wrong with a description in order, each violation with its file. -/
def Repository.violations (r : Repository) : List (SourceFile × Violation) :=
  violationsAfter [] r.files

/-! ## Descriptions without violations -/

theorem spanFaults_eq_nil_iff {sort : DeclSort} {name : String} {startLine endLine : Nat} :
    spanFaults sort name startLine endLine = [] ↔
      ¬Text.isBlankText name ∧ 1 ≤ startLine ∧ startLine ≤ endLine := by
  simp only [spanFaults, List.append_eq_nil_iff, ite_eq_right_iff, List.cons_ne_nil, imp_false]
  exact and_congr_right fun _ => by omega

theorem FunctionDecl.faults_eq_nil_iff (f : FunctionDecl) : f.faults = [] ↔ f.IsValid := by
  simp only [faults, List.append_eq_nil_iff, spanFaults_eq_nil_iff, ite_eq_right_iff,
    List.cons_ne_nil, imp_false]
  constructor
  · rintro ⟨⟨hname, hlines⟩, hcomplexity⟩
    exact ⟨hname, hlines, Nat.one_le_iff_ne_zero.mpr hcomplexity⟩
  · rintro ⟨hname, hlines, hcomplexity⟩
    exact ⟨⟨hname, hlines⟩, Nat.one_le_iff_ne_zero.mp hcomplexity⟩

theorem ClassDecl.faults_eq_nil_iff (c : ClassDecl) : c.faults = [] ↔ c.IsValid := by
  simp only [faults, List.append_eq_nil_iff, spanFaults_eq_nil_iff, List.flatMap_eq_nil_iff,
    FunctionDecl.faults_eq_nil_iff]
  exact ⟨fun ⟨⟨hname, hlines⟩, hmethods⟩ => ⟨hname, hlines, hmethods⟩,
    fun ⟨hname, hlines, hmethods⟩ => ⟨⟨hname, hlines⟩, hmethods⟩⟩

theorem SourceFile.violations_eq_nil_iff (file : SourceFile) (earlier : List String) :
    file.violations earlier = [] ↔ file.path ∉ earlier ∧ file.IsValid := by
  simp only [violations, List.append_eq_nil_iff, ite_eq_right_iff, List.cons_ne_nil, imp_false,
    List.map_eq_nil_iff, List.flatMap_eq_nil_iff, ClassDecl.faults_eq_nil_iff,
    FunctionDecl.faults_eq_nil_iff]
  refine and_congr_right fun _ => ?_
  exact ⟨fun ⟨hpath, hclasses, hfunctions⟩ => ⟨hpath, hclasses, hfunctions⟩,
    fun ⟨hpath, hclasses, hfunctions⟩ => ⟨hpath, hclasses, hfunctions⟩⟩

theorem violationsAfter_eq_nil_iff (earlier : List String) (files : List SourceFile) :
    violationsAfter earlier files = [] ↔
      (files.map (·.path)).Nodup ∧ ∀ file ∈ files, file.path ∉ earlier ∧ file.IsValid := by
  induction files generalizing earlier with
  | nil => simp [violationsAfter]
  | cons file files ih =>
    rw [violationsAfter, List.append_eq_nil_iff, List.map_eq_nil_iff, ih,
      SourceFile.violations_eq_nil_iff, List.map_cons, List.nodup_cons, List.forall_mem_cons]
    simp only [List.mem_cons, not_or, List.mem_map, not_exists, not_and]
    constructor
    · rintro ⟨hfile, hdistinct, hfiles⟩
      exact ⟨⟨fun other ho => (hfiles other ho).1.1, hdistinct⟩, hfile,
        fun other ho => ⟨(hfiles other ho).1.2, (hfiles other ho).2⟩⟩
    · rintro ⟨⟨hnew, hdistinct⟩, hfile, hfiles⟩
      exact ⟨hfile, hdistinct,
        fun other ho => ⟨⟨hnew other ho, (hfiles other ho).1⟩, (hfiles other ho).2⟩⟩

/-- **A description without violations is valid.** -/
theorem Repository.violations_eq_nil_iff (r : Repository) : r.violations = [] ↔ r.IsValid := by
  unfold violations
  rw [violationsAfter_eq_nil_iff]
  exact ⟨fun ⟨hdistinct, hfiles⟩ => ⟨hdistinct, fun file hf => (hfiles file hf).2⟩,
    fun ⟨hdistinct, hfiles⟩ => ⟨hdistinct, fun file hf => ⟨List.not_mem_nil, hfiles file hf⟩⟩⟩

instance (r : Repository) : Decidable r.IsValid :=
  decidable_of_iff (r.violations.isEmpty = true)
    (List.isEmpty_iff.trans r.violations_eq_nil_iff)

/-! ## The first violation -/

theorem fault?_checkSpan (sort : DeclSort) (name : String) (startLine endLine : Nat) :
    Outcome.fault? (checkSpan sort name startLine endLine) =
      (spanFaults sort name startLine endLine).head? := by
  unfold checkSpan spanFaults
  split
  · rfl
  · split
    · rfl
    · split <;> rfl

theorem FunctionDecl.fault?_check (f : FunctionDecl) :
    Outcome.fault? f.check = f.faults.head? := by
  unfold check faults
  rw [List.head?_append, ← fault?_checkSpan]
  refine Outcome.fault?_bind fun _ _ => ?_
  split <;> rfl

theorem ClassDecl.fault?_check (c : ClassDecl) : Outcome.fault? c.check = c.faults.head? := by
  unfold check faults
  rw [List.head?_append, ← fault?_checkSpan]
  refine Outcome.fault?_bind fun _ _ => ?_
  rw [Outcome.fault?_forM, List.head?_flatMap]
  simp only [FunctionDecl.fault?_check]

theorem SourceFile.fault?_check {file : SourceFile} {earlier : List String}
    (hnew : file.path ∉ earlier) :
    Outcome.fault? file.check = (file.violations earlier).head? := by
  unfold check violations
  rw [if_neg hnew, List.nil_append]
  split
  · rfl
  · rw [List.nil_append, Outcome.fault?_mapError, List.head?_map, List.head?_append,
      List.head?_flatMap, List.head?_flatMap,
      Outcome.fault?_bind fun _ _ => Outcome.fault?_forM _ _, Outcome.fault?_forM]
    simp only [ClassDecl.fault?_check, FunctionDecl.fault?_check]

theorem fault?_checkFiles {seen : Std.HashSet String} {earlier : List String}
    (hseen : ∀ path, path ∈ seen ↔ path ∈ earlier) (files : List SourceFile) :
    Outcome.fault? (checkFiles seen files) = (violationsAfter earlier files).head?.map (·.2) := by
  induction files generalizing seen earlier with
  | nil => rfl
  | cons file files ih =>
    rw [checkFiles, violationsAfter, List.head?_append, Option.map_or, List.head?_map,
      Option.map_map]
    have hcontains : seen.contains file.path = true ↔ file.path ∈ earlier := hseen file.path
    by_cases hold : file.path ∈ earlier
    · rw [if_pos (hcontains.mpr hold)]
      simp [SourceFile.violations, hold, Outcome.fault?]
    · rw [if_neg (mt hcontains.mp hold)]
      have hfiles : ∀ path, path ∈ seen.insert file.path ↔ path ∈ file.path :: earlier := by
        intro path
        rw [Std.HashSet.mem_insert, List.mem_cons, hseen, beq_iff_eq, eq_comm]
      rw [Outcome.fault?_bind fun _ _ => ih hfiles, SourceFile.fault?_check hold]
      cases (file.violations earlier).head? <;> rfl

/-- **The check fails with the first violation.** -/
theorem Repository.fault?_check (r : Repository) :
    Outcome.fault? r.check = r.violations.head?.map (·.2) :=
  fault?_checkFiles (fun _ => by simp) r.files

/-- The check of a file on its own passes the valid files. -/
theorem SourceFile.check_eq_ok_iff_isValid (file : SourceFile) :
    file.check = .ok () ↔ file.IsValid := by
  rw [Outcome.eq_ok_iff, SourceFile.fault?_check List.not_mem_nil, List.head?_eq_none_iff,
    file.violations_eq_nil_iff]
  exact and_iff_right List.not_mem_nil

/-- **The check passes the valid descriptions.** -/
theorem Repository.check_eq_ok_iff_isValid (r : Repository) : r.check = .ok () ↔ r.IsValid := by
  rw [Outcome.eq_ok_iff, r.fault?_check, Option.map_eq_none_iff, List.head?_eq_none_iff,
    r.violations_eq_nil_iff]

/-- A description passes its check if the paths of its files are distinct and every file passes its
own. -/
theorem Repository.check_eq_ok_iff (r : Repository) :
    r.check = .ok () ↔ r.paths.Nodup ∧ ∀ file ∈ r.files, file.check = .ok () := by
  rw [r.check_eq_ok_iff_isValid]
  simp only [SourceFile.check_eq_ok_iff_isValid]
  constructor
  · rintro ⟨hdistinct, hfiles⟩
    exact ⟨hdistinct, hfiles⟩
  · rintro ⟨hdistinct, hfiles⟩
    exact ⟨hdistinct, hfiles⟩

/-! ## The file of the first violation -/

/-- The first violation in a file goes with its path, unless that is blank. A blank path that has
occurred before would be found to be repeated first. -/
theorem SourceFile.paths_of_head?_violations {file : SourceFile} {earlier : List String}
    {violation : Violation} (hearlier : Text.isBlankText file.path → file.path ∉ earlier)
    (h : (file.violations earlier).head? = some violation) :
    violation.toError.paths = if Text.isBlankText file.path then [] else [file.path] := by
  unfold violations at h
  by_cases hblank : Text.isBlankText file.path = true
  · rw [if_neg (hearlier hblank), if_pos hblank] at h
    obtain rfl := Option.some.inj h
    rw [if_pos hblank]
    rfl
  · rw [if_neg hblank] at h
    rw [if_neg hblank]
    have hmem := List.mem_of_mem_head? h
    simp only [List.nil_append, List.mem_append, List.mem_ite_nil_right, List.mem_singleton,
      List.mem_map] at hmem
    rcases hmem with ⟨-, rfl⟩ | ⟨fault, -, rfl⟩
    · rfl
    · rfl

theorem paths_of_head?_violationsAfter {earlier : List String} {files : List SourceFile}
    {file : SourceFile} {violation : Violation}
    (hearlier : ∀ path ∈ earlier, ¬Text.isBlankText path)
    (h : (violationsAfter earlier files).head? = some (file, violation)) :
    violation.toError.paths = if Text.isBlankText file.path then [] else [file.path] := by
  induction files generalizing earlier with
  | nil => cases h
  | cons first files ih =>
    rw [violationsAfter, List.head?_append, List.head?_map] at h
    cases hfirst : (first.violations earlier).head? with
    | some found =>
      rw [hfirst] at h
      obtain ⟨rfl, rfl⟩ := Prod.mk.inj (Option.some.inj h)
      exact first.paths_of_head?_violations (fun hblank hm => hearlier _ hm hblank) hfirst
    | none =>
      rw [hfirst] at h
      have hvalid := (first.violations_eq_nil_iff earlier).mp (List.head?_eq_none_iff.mp hfirst)
      exact ih (List.forall_mem_cons.mpr ⟨hvalid.2.path, hearlier⟩) h

/-- **The first violation goes with the path of its file**, unless that is blank. -/
theorem Repository.paths_of_head?_violations {r : Repository} {file : SourceFile}
    {violation : Violation} (h : r.violations.head? = some (file, violation)) :
    violation.toError.paths = if Text.isBlankText file.path then [] else [file.path] :=
  paths_of_head?_violationsAfter (List.forall_mem_nil _) h

end ImportAtlas
