import ImportAtlas.Proofs.Import.Alias
import ImportAtlas.Proofs.Path.Normal
import ImportAtlas.Proofs.Text.Blank
import Mathlib.Logic.Function.Iterate

/-!
# Resolution as one search

The nested searches of a resolver are one search through a flat list of candidates. An import stands
for base paths, in order, and each base path for its candidates, in order; the answer is the path as
written of the first candidate that is the normal form of a path of the repository.

## Main definitions

* `Import.candidatesAt`: the candidates of a base path
* `Import.bases`: the base paths of a text, by convention
* `Import.candidates`: all candidates of an import

## Main results

* `lookup?_eq_findSome?`: the search at a base path goes through its candidates
* `resolve?_eq_findSome?`: the search for an import goes through its candidates
* `resolve?_ofPaths`: the answer in terms of the paths of a repository
-/

namespace ImportAtlas

open ImportAtlas.Path Text

namespace Import

/-! ## The candidates of an import -/

/-- The candidates of a base path in normal form: the path itself, the path with each extension, and
each index file of the directory with each extension. The directory above all files is no file, and
a path that climbs above it has no candidates. -/
def candidatesAt (rules : ImportRules) (base : String) : List String :=
  (if base.isEmpty || climbs base then [] else base :: rules.extensions.map (base ++ ·)) ++
    if climbs base then []
    else rules.indexFiles.flatMap fun stem => rules.extensions.map (under base stem ++ ·)

/-- The forms of a text that does not start with a dot: as it is written and, if it has no slash, as
a dotted module. -/
def forms (text : String) : List String :=
  normalize text :: if text.toList.contains '/' then [] else [dottedForm text]

/-- The base path of a text that starts with a dot, `dir` being the directory of the importing file.
Each dot after the first one leads to the directory above. -/
def relativeBase (dir text : String) : String :=
  if text.toList.contains '/' then under dir text
  else
    let dots := (text.toList.takeWhile (· == '.')).length
    let names := text.toList.dropWhile (· == '.')
    under (parent^[dots - 1] dir) (String.ofList (replaceChar '.' '/' names))

/-- The base paths of a text: its forms in each of the directories `dirs`, or its only base path if
it starts with a dot. -/
def basesIn (dirs : List String) (dir text : String) : List String :=
  if isRelative text then [relativeBase dir text]
  else dirs.flatMap fun top => (forms text).map (under top)

/-- The base paths by the package-root convention: from the top, then from each source root, then
from the importing file. -/
def packageBases (rules : ImportRules) (dir text : String) : List String :=
  basesIn ("" :: (rules.sourceRoots ++ [dir])) dir text

/-- The base paths of a text by convention. -/
def bases (rules : ImportRules) (dir text : String) : List String :=
  match rules.convention with
  | .relativePath => basesIn ["", dir] dir text
  | .packageRoot => packageBases rules dir text
  | .customResolver =>
    (aliased? rules.aliases text).toList.flatMap (packageBases rules dir) ++
      packageBases rules dir text

/-- All candidates of an import, in order; blanks around its text do not count. -/
def candidates (rules : ImportRules) (specifier importer : String) : List String :=
  if (trim specifier).isEmpty then []
  else (bases rules (parent (normalize importer)) (trim specifier)).flatMap (candidatesAt rules)

theorem findSome?_flatMap {α β γ : Type} (values : List α) (f : α → List β) (g : β → Option γ) :
    (values.flatMap f).findSome? g = values.findSome? fun value => (f value).findSome? g := by
  induction values with
  | nil => rfl
  | cons value values ih =>
    rw [List.flatMap_cons, List.findSome?_append, ih, List.findSome?_cons]
    cases (f value).findSome? g <;> rfl

theorem findSome?_congr_of_mem {α β : Type} {values : List α} {f g : α → Option β}
    (h : ∀ value ∈ values, f value = g value) : values.findSome? f = values.findSome? g := by
  induction values with
  | nil => rfl
  | cons value values ih =>
    obtain ⟨hvalue, hvalues⟩ := List.forall_mem_cons.mp h
    rw [List.findSome?_cons, List.findSome?_cons, hvalue, ih hvalues]

/-- The dotted form of a text may be left out if it is the written one. -/
theorem findSome?_moduleForms {α : Type} (text : String) (f : String → Option α) :
    (moduleForms text).findSome? f = (forms text).findSome? f := by
  unfold moduleForms forms
  by_cases hslash : text.toList.contains '/' = true
  · rw [if_pos hslash, if_pos hslash]
  · rw [if_neg hslash, if_neg hslash]
    -- A form that is tried twice in a row finds nothing new.
    by_cases hsame : dottedForm text = normalize text
    · rw [if_pos hsame, hsame]
      simp only [List.findSome?_cons, List.findSome?_nil]
      cases f (normalize text) <;> rfl
    · rw [if_neg hsame]

theorem normalize_of_mem_basesIn {dirs : List String} {dir text base : String}
    (h : base ∈ basesIn dirs dir text) : normalize base = base := by
  unfold basesIn at h
  split at h
  · obtain rfl := List.mem_singleton.mp h
    unfold relativeBase
    split <;> exact normalize_under _ _
  · obtain ⟨top, -, hm⟩ := List.mem_flatMap.mp h
    obtain ⟨form, -, rfl⟩ := List.mem_map.mp hm
    exact normalize_under _ _

/-- Base paths are in normal form. -/
theorem normalize_of_mem_bases {rules : ImportRules} {dir text base : String}
    (h : base ∈ bases rules dir text) : normalize base = base := by
  unfold bases at h
  split at h
  · exact normalize_of_mem_basesIn h
  · exact normalize_of_mem_basesIn h
  · rcases List.mem_append.mp h with h | h
    · obtain ⟨expanded, -, hm⟩ := List.mem_flatMap.mp h
      exact normalize_of_mem_basesIn hm
    · exact normalize_of_mem_basesIn h

end Import

namespace FileIndex

open Import

variable (index : FileIndex)

/-! ## The search at a base path -/

theorem withExtension?_eq (stem : String) :
    index.withExtension? stem =
      (index.rules.extensions.map (stem ++ ·)).findSome? index.find? := by
  rw [List.findSome?_map]
  rfl

theorem directoryFile?_eq (dir : String) :
    index.directoryFile? dir =
      (if climbs dir then []
        else index.rules.indexFiles.flatMap fun stem =>
          index.rules.extensions.map (under dir stem ++ ·)).findSome? index.find? := by
  unfold directoryFile?
  split
  · rfl
  · simp only [findSome?_flatMap, withExtension?_eq]

/-- **The search at a base path goes through its candidates.** -/
theorem lookup?_eq_findSome? (base : String) :
    index.lookup? base =
      (candidatesAt index.rules (normalize base)).findSome? index.find? := by
  unfold lookup? candidatesAt
  rw [List.findSome?_append, ← directoryFile?_eq]
  dsimp only
  split
  · rw [List.findSome?_nil, Option.none_or]
  · rw [List.findSome?_cons, ← withExtension?_eq]
    cases index.find? (normalize base) with
    | none => rw [Option.none_or]
    | some path => rw [Option.some_or, Option.some_or]

theorem lookup?_normalize (base : String) : index.lookup? (normalize base) = index.lookup? base := by
  rw [lookup?_eq_findSome?, lookup?_eq_findSome?, normalize_normalize]

theorem lookup?_under_normalize (dir base : String) :
    index.lookup? (under dir (normalize base)) = index.lookup? (under dir base) := by
  rw [under_normalize]

/-! ## The search for a text -/

/-- The search for a text from one directory. -/
theorem findSome?_forms_under (text dir : String) :
    ((forms text).map (under dir)).findSome? index.lookup? =
      (moduleForms text).findSome? fun form => index.lookup? (under dir form) := by
  rw [List.findSome?_map, findSome?_moduleForms]
  simp only [Function.comp_def]

theorem fromTop?_eq (text : String) :
    index.fromTop? text = ((forms text).map (under "")).findSome? index.lookup? := by
  rw [findSome?_forms_under]
  unfold fromTop?
  simp only [under_empty, lookup?_normalize]

theorem fromRoots?_eq (text : String) :
    index.fromRoots? text =
      (index.rules.sourceRoots.flatMap fun root =>
        (forms text).map (under root)).findSome? index.lookup? := by
  unfold fromRoots?
  simp only [findSome?_flatMap, findSome?_forms_under]

theorem ancestor_eq_iterate (dir : String) (levels : Nat) : ancestor dir levels = parent^[levels] dir := by
  induction levels generalizing dir with
  | zero => rfl
  | succ levels ih => exact ih (parent dir)

/-- The search for a text that starts with a dot. -/
theorem fromImporter?_of_isRelative {text : String} (h : isRelative text = true) (importer : String) :
    index.fromImporter? text importer =
      index.lookup? (relativeBase (parent (normalize importer)) text) := by
  unfold fromImporter? relativeBase
  dsimp only
  split
  · rfl
  · obtain ⟨rest, hrest⟩ : ∃ rest, text.toList = '.' :: rest := by
      unfold isRelative at h
      exact List.head?_eq_some_iff.mp (beq_iff_eq.mp h)
    -- The first dot stands for the directory of the importing file, each further one for a parent.
    have hdots : (text.toList.takeWhile (· == '.')).length =
        (rest.takeWhile (· == '.')).length + 1 := by
      rw [hrest]
      rfl
    rw [hdots]
    dsimp only
    rw [ancestor_eq_iterate, Nat.add_sub_cancel]

/-- The search for any other text from the importing file. -/
theorem fromImporter?_of_not_isRelative {text : String} (h : isRelative text = false)
    (importer : String) :
    index.fromImporter? text importer =
      ((forms text).map (under (parent (normalize importer)))).findSome? index.lookup? := by
  unfold fromImporter?
  dsimp only
  split
  · next hslash =>
    unfold forms
    rw [if_pos hslash, List.map_singleton, List.findSome?_singleton, lookup?_under_normalize]
  · have hdots : (text.toList.takeWhile (· == '.')).length = 0 := by
      unfold isRelative at h
      cases htext : text.toList with
      | nil => rfl
      | cons c rest =>
        rw [htext] at h
        have hc : (c == '.') = false := h
        rw [List.takeWhile_cons, hc]
        rfl
    rw [hdots, findSome?_forms_under]

theorem relative?_eq (text importer : String) :
    index.relative? text importer =
      (basesIn ["", parent (normalize importer)] (parent (normalize importer)) text).findSome?
        index.lookup? := by
  unfold relative? basesIn
  cases hrel : isRelative text with
  | true =>
    rw [if_pos rfl, if_pos rfl, List.findSome?_singleton, fromImporter?_of_isRelative index hrel]
  | false =>
    rw [if_neg Bool.false_ne_true, if_neg Bool.false_ne_true, fromTop?_eq,
      fromImporter?_of_not_isRelative index hrel, ← List.findSome?_append, List.flatMap_cons,
      List.flatMap_singleton]

theorem package?_eq (text importer : String) :
    index.package? text importer =
      (packageBases index.rules (parent (normalize importer)) text).findSome? index.lookup? := by
  unfold package? packageBases basesIn
  cases hrel : isRelative text with
  | true =>
    rw [if_pos rfl, if_pos rfl, List.findSome?_singleton, fromImporter?_of_isRelative index hrel]
  | false =>
    rw [if_neg Bool.false_ne_true, if_neg Bool.false_ne_true, fromTop?_eq, fromRoots?_eq,
      fromImporter?_of_not_isRelative index hrel, ← List.findSome?_append, ← List.findSome?_append,
      List.flatMap_cons, List.flatMap_append, List.flatMap_singleton]

/-- The search for a text goes through its base paths. -/
theorem custom?_eq (text importer : String) :
    index.custom? text importer =
      ((aliased? index.rules.aliases text).toList.flatMap
          (packageBases index.rules (parent (normalize importer))) ++
        packageBases index.rules (parent (normalize importer)) text).findSome? index.lookup? := by
  unfold custom?
  rw [List.findSome?_append, ← package?_eq, expandAlias?_eq_aliased?]
  cases aliased? index.rules.aliases text with
  | none => rfl
  | some expanded => rw [Option.bind_some, Option.toList_some, List.flatMap_singleton, package?_eq]

/-- The blanks around an import do not matter to the search for it. -/
theorem resolve?_trim (specifier importer : String) :
    index.resolve? (trim specifier) importer = index.resolve? specifier importer := by
  unfold resolve?
  rw [trim_trim]

/-- **The search for an import goes through its candidates.** -/
theorem resolve?_eq_findSome? (specifier importer : String) :
    index.resolve? specifier importer =
      (candidates index.rules specifier importer).findSome? index.find? := by
  have hbases : ∀ text, (bases index.rules (parent (normalize importer)) text).findSome?
      index.lookup? = ((bases index.rules (parent (normalize importer)) text).flatMap
        (candidatesAt index.rules)).findSome? index.find? := by
    intro text
    rw [findSome?_flatMap]
    refine findSome?_congr_of_mem fun base hb => ?_
    rw [lookup?_eq_findSome?, normalize_of_mem_bases hb]
  unfold resolve? candidates
  dsimp only
  split
  · rfl
  · rw [← hbases]
    unfold bases
    cases index.rules.convention with
    | relativePath => exact relative?_eq index _ importer
    | packageRoot => exact package?_eq index _ importer
    | customResolver => exact custom?_eq index _ importer

/-! ## The files of a repository -/

theorem getElem?_foldl_note (paths : List String) (known : Std.HashMap String String)
    (normal : String) :
    (paths.foldl note known)[normal]? =
      known[normal]?.or (paths.find? fun path => normalize path == normal) := by
  induction paths generalizing known with
  | nil => exact Option.or_none.symm
  | cons path paths ih =>
    rw [List.foldl_cons, ih, note, Std.HashMap.getElem?_insertIfNew, List.find?_cons]
    cases hsame : normalize path == normal with
    | false => rw [if_neg fun h => Bool.false_ne_true h.1]
    | true =>
      obtain rfl := beq_iff_eq.mp hsame
      -- A path whose normal form is known already changes nothing.
      by_cases hk : normalize path ∈ known
      · obtain ⟨first, hf⟩ := Option.isSome_iff_exists.mp (Std.HashMap.isSome_getElem?_iff_mem.mpr hk)
        rw [if_neg fun h => h.2 hk, hf, Option.some_or, Option.some_or]
      · rw [if_pos ⟨rfl, hk⟩, Std.HashMap.getElem?_eq_none hk, Option.some_or, Option.none_or]

/-- The first path of a normal form counts. -/
theorem find?_ofPaths (rules : ImportRules) (paths : List String) (normal : String) :
    (ofPaths rules paths).find? normal = paths.find? fun path => normalize path == normal := by
  refine (getElem?_foldl_note paths ∅ normal).trans ?_
  rw [Std.HashMap.getElem?_empty, Option.none_or]

theorem find?_ofPaths_eq (rules : ImportRules) (paths : List String) :
    (ofPaths rules paths).find? =
      fun normal => paths.find? fun path => normalize path == normal :=
  funext (find?_ofPaths rules paths)

/-- **An import resolves to the first of its candidates that is the normal form of a path of the
repository**, and is answered as the first path of that normal form is written. -/
theorem resolve?_ofPaths (rules : ImportRules) (paths : List String) (specifier importer : String) :
    (ofPaths rules paths).resolve? specifier importer =
      (candidates rules specifier importer).findSome? fun candidate =>
        paths.find? fun path => normalize path == candidate := by
  rw [resolve?_eq_findSome?, find?_ofPaths_eq]
  rfl

example :
    candidates { extensions := [".py"], indexFiles := ["__init__"] } "app.utils" "web/main.py" =
      ["app.utils", "app.utils.py", "app.utils/__init__.py",
        "app/utils", "app/utils.py", "app/utils/__init__.py",
        "web/app.utils", "web/app.utils.py", "web/app.utils/__init__.py",
        "web/app/utils", "web/app/utils.py", "web/app/utils/__init__.py"] := by
  decide +kernel

end FileIndex

end ImportAtlas
