import ImportAtlas.Proofs.Import.Candidates
import ImportAtlas.Proofs.Path.Names

/-!
# Imports by exact path

An import text that names a file by its path from the top, in any way of writing, stands for that file,
since the path as it is written comes first of all candidates. The one exception is a path that starts
with two dots. It is taken for a climb above the top even if the dots only begin a name, so a file of
such a path is found by no import text at all.

## Main definitions

* `Import.PlainStems`: rules whose index files have names that do not start with a dot

## Main results

* `lookup?_eq_none_of_climbs`, `lookup?_ofPaths_eq_some`: the search at a base path that climbs, and at
  the path of a file
* `resolve?_ne_of_climbs`: a file whose path starts with two dots is never found
* `resolve?_exact`: any other file is found by its path
-/

namespace ImportAtlas

open ImportAtlas.Path Text

namespace Import

variable {rules : ImportRules} {base candidate : String}

/-- The stems of the index files are names, and none starts with a dot. -/
def PlainStems (rules : ImportRules) : Prop :=
  ∀ stem ∈ rules.indexFiles, IsName stem.toList ∧ isRelative stem = false

instance (rules : ImportRules) : Decidable (PlainStems rules) :=
  inferInstanceAs (Decidable (∀ stem ∈ rules.indexFiles,
    IsName stem.toList ∧ isRelative stem = false))

/-- Nothing that is added to a base path makes it start with two dots. -/
theorem climbs_append_of_normalize_eq (hbase : normalize base = base) (hne : base ≠ "")
    (hclimbs : climbs base = false) (rest : String) : climbs (base ++ rest) = false := by
  by_contra hc
  rw [Bool.not_eq_false] at hc
  rw [climbs_of_append hc hne (hbase ▸ normalize_ne_here base)] at hclimbs
  cases hclimbs

/-- Neither does anything that is added to a text that starts with something else than a dot. -/
theorem climbs_append_of_not_isRelative {stem : String} (hne : stem.toList ≠ [])
    (hstem : isRelative stem = false) (rest : String) : climbs (stem ++ rest) = false := by
  obtain ⟨first, others, hchars⟩ := List.exists_cons_of_ne_nil hne
  unfold isRelative at hstem
  rw [hchars] at hstem
  by_contra hc
  rw [Bool.not_eq_false, climbs_eq_true_iff, String.toList_append, hchars, List.cons_append] at hc
  obtain ⟨later, hlater⟩ := hc
  obtain ⟨rfl, -⟩ := List.cons.inj hlater
  exact Bool.noConfusion hstem

/-- The index files of a directory do not start with two dots. -/
theorem climbs_under_append (hbase : normalize base = base) (hclimbs : climbs base = false)
    {stem : String} (hname : IsName stem.toList) (hstem : isRelative stem = false) (ext : String) :
    climbs (under base stem ++ ext) = false := by
  have hone : ofNames [stem.toList] = stem := String.ofList_toList
  have hinside : IsInside base := isInside_of_climbs_eq_false (hbase.symm ▸ hclimbs)
  have hunder : under base stem = ofNames (steps base ++ [stem.toList]) := by
    have hnames := under_ofNames_ofNames (fun _ => isName_of_mem_steps hinside)
      (List.forall_mem_singleton.mpr hname)
    rwa [← normalize_eq_ofNames, hbase, hone] at hnames
  rw [hunder]
  by_cases hsteps : steps base = []
  · -- At the top the stem comes first, and its first character is no dot.
    rw [hsteps, List.nil_append, hone]
    exact climbs_append_of_not_isRelative hname.isStep.1 hstem ext
  · -- Anywhere else the directory comes first.
    have hne : base ≠ "" := by
      rw [← hbase, normalize_eq_ofNames, Ne,
        ofNames_eq_empty_iff fun _ hn => (isName_of_mem_steps hinside hn).isStep.1]
      exact hsteps
    rw [ofNames_concat hsteps, ← normalize_eq_ofNames, hbase, String.append_assoc]
    exact climbs_append_of_normalize_eq hbase hne hclimbs _

/-- **No candidate starts with two dots** if the index files have plain stems. -/
theorem climbs_of_mem_candidatesAt (hstems : PlainStems rules) (hbase : normalize base = base)
    (h : candidate ∈ candidatesAt rules base) : climbs candidate = false := by
  unfold candidatesAt at h
  cases hclimbs : climbs base with
  | true => simp [hclimbs] at h
  | false =>
    rw [hclimbs, Bool.or_false, if_neg Bool.false_ne_true] at h
    rcases List.mem_append.mp h with h | h
    · split at h
      · cases h
      · next hempty =>
        have hne : base ≠ "" := fun he => hempty (he ▸ rfl)
        rcases List.mem_cons.mp h with rfl | h
        · exact hclimbs
        · obtain ⟨ext, -, rfl⟩ := List.mem_map.mp h
          exact climbs_append_of_normalize_eq hbase hne hclimbs ext
    · obtain ⟨stem, hstem, hm⟩ := List.mem_flatMap.mp h
      obtain ⟨ext, -, rfl⟩ := List.mem_map.mp hm
      obtain ⟨hname, hplain⟩ := hstems stem hstem
      exact climbs_under_append hbase hclimbs hname hplain ext

end Import

namespace FileIndex

variable {rules : ImportRules} {paths : List String} {path base specifier : String}

/-! ## The search at one base path -/

/-- A base path that climbs stands for no file. -/
theorem lookup?_eq_none_of_climbs (index : FileIndex) (h : climbs (normalize base) = true) :
    index.lookup? base = none := by
  rw [lookup?_eq_findSome?]
  simp [Import.candidatesAt, h]

/-- A file is found by its normal form if no other file has it. -/
theorem find?_ofPaths_eq_some (rules : ImportRules) (hmem : path ∈ paths)
    (hsole : ∀ other ∈ paths, normalize other = normalize path → other = path) :
    (ofPaths rules paths).find? (normalize path) = some path := by
  rw [find?_ofPaths]
  cases hfind : paths.find? fun other => normalize other == normalize path with
  | none => exact absurd BEq.rfl (List.find?_eq_none.mp hfind path hmem)
  | some other =>
    have hsame := List.find?_some hfind
    rw [hsole other (List.mem_of_find?_eq_some hfind) (beq_iff_eq.mp hsame)]

/-- **A base path finds the file of its normal form**, whatever else it could stand for. -/
theorem lookup?_ofPaths_eq_some (rules : ImportRules) (hmem : path ∈ paths)
    (hsole : ∀ other ∈ paths, normalize other = normalize path → other = path)
    (hne : normalize path ≠ "") (hclimbs : climbs (normalize path) = false)
    (hbase : normalize base = normalize path) :
    (ofPaths rules paths).lookup? base = some path := by
  have hfile : ¬((normalize path).isEmpty || climbs (normalize path)) = true := by
    rw [hclimbs, Bool.or_false, String.isEmpty_iff]
    exact hne
  rw [lookup?_eq_findSome?, hbase]
  unfold Import.candidatesAt
  rw [if_neg hfile, List.cons_append, List.findSome?_cons, find?_ofPaths_eq_some rules hmem hsole]

theorem fromTop?_eq_some (index : FileIndex) (h : index.lookup? specifier = some path) :
    index.fromTop? specifier = some path := by
  unfold fromTop?
  rw [Import.findSome?_moduleForms]
  unfold Import.forms
  rw [List.findSome?_cons, lookup?_normalize, h]

/-! ## Paths that start with two dots -/

/-- **A file whose path starts with two dots is never found**, by no import text from no file. -/
theorem resolve?_ne_of_climbs (hstems : Import.PlainStems rules)
    (hclimbs : climbs (normalize path) = true) (text importer : String) :
    (ofPaths rules paths).resolve? text importer ≠ some path := by
  intro hresolve
  rw [resolve?_eq_findSome?, find?_ofPaths_eq] at hresolve
  obtain ⟨candidate, hcandidate, hfind⟩ := List.exists_of_findSome?_eq_some hresolve
  have hsame := List.find?_some hfind
  unfold Import.candidates at hcandidate
  split at hcandidate
  · cases hcandidate
  · obtain ⟨base, hbase, hm⟩ := List.mem_flatMap.mp hcandidate
    have hplain := Import.climbs_of_mem_candidatesAt hstems (Import.normalize_of_mem_bases hbase) hm
    rw [← beq_iff_eq.mp hsame, hclimbs] at hplain
    cases hplain

/-! ## Exact paths -/

/-- **An exact path stands for its file**, whatever the extensions, index files, source roots, other
files and the importing file are, unless its normal form starts with two dots. A file of such a path is
never found, although the dots may only begin the name of a directory or a file. -/
theorem resolve?_exact (hconvention : rules.convention ≠ .customResolver) (hmem : path ∈ paths)
    (hsole : ∀ other ∈ paths, normalize other = normalize path → other = path)
    (hne : normalize path ≠ "") (htrim : trim specifier = specifier)
    (hrelative : Import.isRelative specifier = false)
    (hspecifier : normalize specifier = normalize path) :
    (climbs (normalize path) = false → ∀ importer,
      (ofPaths rules paths).resolve? specifier importer = some path) ∧
    (climbs (normalize path) = true → Import.PlainStems rules → ∀ text importer,
      (ofPaths rules paths).resolve? text importer ≠ some path) := by
  refine ⟨fun hclimbs importer => ?_, fun hclimbs hstems => resolve?_ne_of_climbs hstems hclimbs⟩
  have htop := fromTop?_eq_some _
    (lookup?_ofPaths_eq_some rules hmem hsole hne hclimbs hspecifier)
  have htext : ¬specifier.isEmpty = true := by
    rw [String.isEmpty_iff]
    rintro rfl
    exact hne hspecifier.symm
  unfold resolve?
  dsimp only
  rw [htrim, if_neg htext]
  cases hrules : (ofPaths rules paths).rules.convention with
  | relativePath =>
    unfold relative?
    rw [hrelative, if_neg Bool.false_ne_true, htop, Option.some_or]
  | packageRoot =>
    unfold package?
    rw [hrelative, if_neg Bool.false_ne_true, htop, Option.some_or]
  | customResolver => exact absurd hrules hconvention

/-- A path written with the other slash, an empty segment and a detour, and a directory whose name
starts with two dots. -/
theorem resolve?_exact_detour :
    let rules : ImportRules := { convention := .packageRoot }
    let paths := ["src/app/main.py.py", "src\\app//main.py", "..config/main.py"]
    let index := ofPaths rules paths
    normalize "/src/./app/x/../main.py" = normalize "src\\app//main.py" ∧
      index.resolve? "/src/./app/x/../main.py" "..config/main.py" = some "src\\app//main.py" ∧
      normalize "/..config/main.py" = normalize "..config/main.py" ∧ IsInside "..config/main.py" ∧
      index.resolve? "/..config/main.py" "src/app/main.py" ≠ some "..config/main.py" := by
  intro rules paths index
  have hfound : normalize "/src/./app/x/../main.py" = normalize "src\\app//main.py" := by decide
  have hhidden : normalize "/..config/main.py" = normalize "..config/main.py" := by decide
  have hstems : Import.PlainStems rules := by decide
  refine ⟨hfound, ?_, hhidden, by decide, ?_⟩
  · exact (resolve?_exact (by decide) (by decide) (by decide) (by decide) (by decide) (by decide)
      hfound).1 (by decide) _
  · exact (resolve?_exact (by decide) (by decide) (by decide) (by decide) (by decide) (by decide)
      hhidden).2 (by decide) hstems _ _

end FileIndex

end ImportAtlas
