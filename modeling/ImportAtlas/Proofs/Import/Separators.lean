import ImportAtlas.Proofs.Import.Relative
import ImportAtlas.Proofs.Path.Canonical
import Mathlib.Data.List.Flatten

/-!
# Imports written with backslashes

Either slash separates the segments of a path, so a path denotes the same movement with all its
backslashes turned into slashes. An import text is not read as a path right away, though: whether it has
a slash decides if its dots separate names, and a backslash is no slash there. Text that holds a slash
anyway, or no dot but the leading ones, is read alike with either slash. Otherwise a text that starts
with a dot leads somewhere else, its file extension being taken for a name, and any other text is looked
for in more places with backslashes than with slashes.

## Main definitions

* `Path.slashed`: a text with its backslashes turned into slashes
* `Import.EitherSlash`: the texts that are read alike with either slash

## Main results

* `movement_slashed`, `under_slashed`: a path means the same with either slash
* `moduleForms_slashed`, `relativeBase_slashed`: the texts that are read alike
* `forms_slashed_sublist`, `candidates_slashed_sublist`: a text that does not start with a dot has fewer
  forms with slashes, and so fewer candidates
* `resolve?_slashed`: what an import resolves to with either slash
-/

namespace ImportAtlas

open ImportAtlas.Path Text

namespace Path

/-- The text with every backslash turned into a slash. -/
def slashed (text : String) : String :=
  String.ofList (replaceChar '\\' '/' text.toList)

variable {text : String}

theorem toList_slashed (text : String) : (slashed text).toList = replaceChar '\\' '/' text.toList :=
  String.toList_ofList

/-- **A path moves alike with either slash.** -/
theorem movement_slashed (text : String) : movement (slashed text) = movement text := by
  unfold movement segments
  rw [toList_slashed, split_replaceChar rfl rfl]

theorem normalize_slashed (text : String) : normalize (slashed text) = normalize text :=
  (normalize_eq_normalize_iff _ _).mpr (movement_slashed text)

theorem under_slashed (dir text : String) : under dir (slashed text) = under dir text :=
  under_congr (congrArg (movement dir * ·) (movement_slashed text))

theorem slashed_eq_self (h : '\\' ∉ text.toList) : slashed text = text := by
  unfold slashed
  rw [replaceChar_eq_self h, String.ofList_toList]

theorem slash_mem_slashed_iff :
    '/' ∈ (slashed text).toList ↔ '/' ∈ text.toList ∨ '\\' ∈ text.toList := by
  rw [toList_slashed]
  unfold replaceChar
  rw [List.mem_map]
  constructor
  · rintro ⟨c, hc, heq⟩
    split at heq
    · next hback => exact .inr (hback ▸ hc)
    · exact .inl (heq ▸ hc)
  · rintro (hslash | hback)
    · exact ⟨'/', hslash, rfl⟩
    · exact ⟨'\\', hback, rfl⟩

theorem trim_slashed (text : String) : trim (slashed text) = slashed (trim text) := by
  have hblank : ∀ c : Char, isBlank (if c = '\\' then '/' else c) = isBlank c := by
    intro c
    split
    · next hc =>
      subst hc
      rfl
    · rfl
  unfold trim slashed
  rw [String.toList_ofList, String.toList_ofList]
  exact congrArg String.ofList (trimChars_map hblank _)

theorem slashed_isEmpty (text : String) : (slashed text).isEmpty = text.isEmpty := by
  rw [Bool.eq_iff_iff, String.isEmpty_iff, String.isEmpty_iff, ← String.toList_eq_nil_iff,
    toList_slashed, ← String.toList_eq_nil_iff]
  exact List.map_eq_nil_iff

end Path

namespace Import

/-! ## The forms of a text -/

variable {dir text : String}

theorem isRelative_slashed (text : String) : isRelative (slashed text) = isRelative text := by
  unfold isRelative
  rw [toList_slashed]
  cases text.toList with
  | nil => rfl
  | cons c rest =>
    change (some (if c = '\\' then '/' else c) == some '.') = (some c == some '.')
    split
    · next hc =>
      subst hc
      rfl
    · rfl

theorem moduleForms_of_slash (h : '/' ∈ text.toList) : moduleForms text = [normalize text] := by
  unfold moduleForms
  rw [if_pos (List.contains_iff_mem.mpr h)]

/-- **With slashes a text has no more forms**: it keeps the written one and loses the dotted one. -/
theorem forms_slashed_sublist (text : String) : List.Sublist (forms (slashed text)) (forms text) := by
  by_cases hslash : '/' ∈ (slashed text).toList
  · unfold forms
    rw [if_pos (List.contains_iff_mem.mpr hslash), normalize_slashed]
    exact (List.nil_sublist _).cons_cons _
  · rw [slash_mem_slashed_iff, not_or] at hslash
    rw [slashed_eq_self hslash.2]

theorem slashPairs_eq_self {cs : List Char} (h : ¬[':', ':'] <:+: cs) : slashPairs cs = cs := by
  fun_induction slashPairs cs with
  | case1 rest => exact absurd (List.prefix_append [':', ':'] rest).isInfix h
  | case2 c rest _ ih => rw [ih fun hrest => h (List.infix_cons hrest)]
  | case3 => rfl

/-- Without dots and pairs of colons the dotted form is the written one. -/
theorem dottedForm_eq_normalize (hdot : '.' ∉ text.toList) (hpair : ¬[':', ':'] <:+: text.toList) :
    dottedForm text = normalize text := by
  unfold dottedForm
  rw [slashPairs_eq_self hpair, replaceChar_eq_self hdot, String.ofList_toList]

/-! ## Texts that are read alike -/

/-- The texts that are read alike with either slash by a file of the directory `dir`. -/
inductive EitherSlash (dir text : String) : Prop
  /-- A text with a slash is a path, whatever else it has. -/
  | path (slash : '/' ∈ text.toList)
  /-- Without a backslash there is one way to read a text. -/
  | noBackslash (backslash : '\\' ∉ text.toList)
  /-- Without dots and pairs of colons nothing else separates names. -/
  | plain (dot : '.' ∉ text.toList) (pair : ¬[':', ':'] <:+: text.toList)
  /-- One dot stays in the directory, be it counted or walked. -/
  | here (rest : List Char) (written : text.toList = '.' :: '\\' :: rest) (dot : '.' ∉ rest)
  /-- Two dots lead to the directory above, as long as the directory has a name to take back. -/
  | above (rest : List Char) (written : text.toList = '.' :: '.' :: '\\' :: rest) (dot : '.' ∉ rest)
    (ne_top : dir ≠ "") (inside : (segments dir.toList).getLast? ≠ some up)

theorem moduleForms_slashed (h : EitherSlash dir text) (hrelative : isRelative text = false) :
    moduleForms (slashed text) = moduleForms text := by
  have hstart : ∀ rest, text.toList ≠ '.' :: rest := by
    intro rest hrest
    unfold isRelative at hrelative
    rw [hrest] at hrelative
    cases hrelative
  cases h with
  | path slash =>
    rw [moduleForms_of_slash slash, moduleForms_of_slash (slash_mem_slashed_iff.mpr (.inl slash)),
      normalize_slashed]
  | noBackslash backslash => rw [slashed_eq_self backslash]
  | plain dot pair =>
    by_cases hslash : '/' ∈ (slashed text).toList
    · -- The dotted form of the text is the written one and is left out, as it is with a slash.
      have hforms : moduleForms text = [normalize text] := by
        unfold moduleForms
        rw [dottedForm_eq_normalize dot pair]
        dsimp only
        rw [if_pos rfl, ite_self]
      rw [moduleForms_of_slash hslash, normalize_slashed, hforms]
    · rw [slash_mem_slashed_iff, not_or] at hslash
      rw [slashed_eq_self hslash.2]
  | here rest written => exact absurd written (hstart _)
  | above rest written => exact absurd written (hstart _)

/-- What a text denotes that has a separator after its dots. -/
theorem movement_of_toList_eq {c : Char} (hc : isSeparator c = true) {before after : List Char}
    (h : text.toList = before ++ c :: after) :
    movement text = movement (String.ofList before) * movement (String.ofList after) := by
  rw [← movement_append_cons hc, ← h, String.ofList_toList]

/-- A backslash after the dots does not hinder the way down from the directory that they lead to. -/
theorem relativeBase_dots_backslash {rest : List Char} {levels : Nat}
    (htext : text.toList = List.replicate (levels + 1) '.' ++ '\\' :: rest) (hdot : '.' ∉ rest)
    (hslash : '/' ∉ text.toList) (dir : String) :
    relativeBase dir text = under (parent^[levels] dir) (String.ofList rest) := by
  have hhead : ('\\' :: rest).head? ≠ some '.' := by
    intro heq
    exact absurd (Option.some.inj heq) (by decide)
  have hbody : '/' ∉ '\\' :: rest := fun hm => hslash (htext ▸ List.mem_append_right _ hm)
  have hnames : '.' ∉ '\\' :: rest := List.not_mem_cons_of_ne_of_not_mem (by decide) hdot
  have hdown : movement (String.ofList ('\\' :: rest)) = movement (String.ofList rest) :=
    (movement_append_cons rfl [] rest).trans (one_mul _)
  rw [relativeBase_dots htext hhead hbody, replaceChar_eq_self hnames]
  exact under_congr (congrArg _ hdown)

/-- **The base path of a relative text** that is read alike with either slash. -/
theorem relativeBase_slashed (hdir : normalize dir = dir) (h : EitherSlash dir text)
    (hrelative : isRelative text = true) :
    relativeBase dir (slashed text) = relativeBase dir text := by
  by_cases hslash : '/' ∈ text.toList
  · rw [relativeBase_of_slash hslash,
      relativeBase_of_slash (slash_mem_slashed_iff.mpr (.inl hslash)), under_slashed]
  by_cases hback : '\\' ∈ text.toList
  case neg => rw [slashed_eq_self hback]
  -- With slashes the text is a path. Without them its dots are counted.
  rw [relativeBase_of_slash (slash_mem_slashed_iff.mpr (.inr hback)), under_slashed]
  cases h with
  | path slash => exact absurd slash hslash
  | noBackslash backslash => exact absurd hback backslash
  | plain dot =>
    obtain ⟨rest, hrest⟩ := List.head?_eq_some_iff.mp (beq_iff_eq.mp hrelative)
    exact absurd (hrest ▸ List.mem_cons_self) dot
  | here rest written dot =>
    have hmovement := @movement_of_toList_eq text '\\' rfl here rest written
    rw [@relativeBase_dots_backslash text rest 0 written dot hslash]
    exact under_congr (congrArg _ (hmovement.trans (one_mul _)))
  | above rest written dot ne_top inside =>
    have hmovement := @movement_of_toList_eq text '\\' rfl up rest written
    have hparent : movement (parent dir) = movement dir * Movement.ascent := by
      rw [← hdir] at ne_top inside
      have hup := parent_normalize_eq ne_top inside
      rw [hdir] at hup
      rw [hup, movement_normalize, movement_append_up]
    rw [@relativeBase_dots_backslash text rest 1 written dot hslash, Function.iterate_one]
    refine under_congr ?_
    rw [hparent, hmovement, mul_assoc]
    rfl

/-- **With slashes an import that does not start with a dot is looked for in fewer places**, in the same
order. -/
theorem candidates_slashed_sublist {rules : ImportRules} {specifier : String}
    (hconvention : rules.convention ≠ .customResolver)
    (hrelative : isRelative (trim specifier) = false) (importer : String) :
    List.Sublist (candidates rules (slashed specifier) importer)
      (candidates rules specifier importer) := by
  have hbases : ∀ dirs dir, List.Sublist (basesIn dirs dir (slashed (trim specifier)))
      (basesIn dirs dir (trim specifier)) := by
    intro dirs dir
    unfold basesIn
    rw [isRelative_slashed, hrelative]
    exact List.Sublist.flatMap_right dirs fun top _ => (forms_slashed_sublist _).map _
  unfold candidates
  rw [trim_slashed, slashed_isEmpty]
  split
  · exact List.Sublist.refl _
  · refine List.Sublist.flatMap ?_ _
    unfold bases
    cases hrules : rules.convention with
    | relativePath => exact hbases _ _
    | packageRoot => exact hbases _ _
    | customResolver => exact absurd hrules hconvention

end Import

namespace FileIndex

open Import

variable {rules : ImportRules} {paths : List String}

/-- A text that does not start with a dot matters only by its forms. -/
theorem resolve?_eq_of_moduleForms_eq (index : FileIndex)
    (hconvention : index.rules.convention ≠ .customResolver) {text other : String}
    (hempty : (trim text).isEmpty = (trim other).isEmpty)
    (htext : isRelative (trim text) = false) (hother : isRelative (trim other) = false)
    (hforms : moduleForms (trim text) = moduleForms (trim other)) (importer : String) :
    index.resolve? text importer = index.resolve? other importer := by
  have htop : index.fromTop? (trim text) = index.fromTop? (trim other) := by
    unfold fromTop?
    rw [hforms]
  have hroots : index.fromRoots? (trim text) = index.fromRoots? (trim other) := by
    unfold fromRoots?
    rw [hforms]
  have himporter : index.fromImporter? (trim text) importer =
      index.fromImporter? (trim other) importer := by
    rw [fromImporter?_of_not_isRelative index htext, fromImporter?_of_not_isRelative index hother,
      findSome?_forms_under, findSome?_forms_under, hforms]
  unfold resolve?
  dsimp only
  rw [hempty]
  cases hrules : index.rules.convention with
  | relativePath =>
    dsimp only
    unfold relative?
    rw [htext, hother, htop, himporter]
  | packageRoot =>
    dsimp only
    unfold package?
    rw [htext, hother, htop, hroots, himporter]
  | customResolver => exact absurd hrules hconvention

/-- **What an import resolves to with either slash.** Texts that are read alike lead to one file. A
relative text with backslashes and no slash is looked up along the names between its dots, and with
slashes as a path. Any other text is looked for in fewer places with slashes, in the same order. -/
theorem resolve?_slashed (hconvention : rules.convention ≠ .customResolver)
    (specifier importer : String) :
    let index : FileIndex := ofPaths rules paths
    let dir := parent (normalize importer)
    (EitherSlash dir (trim specifier) →
      index.resolve? (slashed specifier) importer = index.resolve? specifier importer) ∧
    (∀ levels body, (trim specifier).toList = List.replicate (levels + 1) '.' ++ body →
      body.head? ≠ some '.' → '/' ∉ body → '\\' ∈ body →
        index.resolve? specifier importer =
          index.lookup?
            (under (parent^[levels] dir) (String.ofList (replaceChar '.' '/' body))) ∧
        index.resolve? (slashed specifier) importer = index.lookup? (under dir (trim specifier))) ∧
    (isRelative (trim specifier) = false →
      List.Sublist (candidates rules (slashed specifier) importer)
        (candidates rules specifier importer)) := by
  intro index dir
  -- All parts are about the trimmed text, so the trimming is taken off the search first.
  have hslashed : index.resolve? (slashed specifier) importer =
      index.resolve? (slashed (trim specifier)) importer := by
    rw [← index.resolve?_trim, trim_slashed]
  have hrelative : ∀ text, trim text = text → isRelative text = true →
      index.resolve? text importer = index.lookup? (relativeBase dir text) := by
    intro text htrim hrel
    change _ = index.lookup? (relativeBase (parent (normalize importer)) text)
    rw [parent_normalize]
    exact resolve?_of_isRelative hconvention htrim hrel importer
  have htrim : trim (slashed (trim specifier)) = slashed (trim specifier) := by
    rw [trim_slashed, trim_trim]
  refine ⟨?_, ?_, fun hrel => candidates_slashed_sublist hconvention hrel importer⟩
  · intro halike
    rw [hslashed, ← index.resolve?_trim specifier]
    cases hrel : isRelative (trim specifier) with
    | true =>
      have hdir : normalize dir = dir := normalize_parent_normalize importer
      rw [hrelative _ htrim ((isRelative_slashed _).trans hrel), hrelative _ (trim_trim _) hrel,
        relativeBase_slashed hdir halike hrel]
    | false =>
      refine resolve?_eq_of_moduleForms_eq index hconvention ?_ ?_ ?_ ?_ importer
      · rw [htrim, trim_trim, slashed_isEmpty]
      · rw [htrim, isRelative_slashed, hrel]
      · rw [trim_trim, hrel]
      · rw [htrim, trim_trim, moduleForms_slashed halike hrel]
  · intro levels body htext hbody hslash hback
    have hrel : isRelative (trim specifier) = true := by
      unfold isRelative
      rw [htext]
      rfl
    have hmem : '\\' ∈ (trim specifier).toList := htext ▸ List.mem_append_right _ hback
    constructor
    · rw [← index.resolve?_trim, hrelative _ (trim_trim _) hrel,
        relativeBase_dots htext hbody hslash]
    · rw [hslashed, hrelative _ htrim ((isRelative_slashed _).trans hrel),
        relativeBase_of_slash (slash_mem_slashed_iff.mpr (.inr hmem)), under_slashed]

/-- A file of the same directory, whose extension is taken for a name behind a backslash, and a file of
the directory above, which is found without its extension. -/
theorem resolve?_slashed_extension :
    let rules : ImportRules := {}
    let index := ofPaths rules ["pkg/a.py", "pkg/main.py", "util.py"]
    slashed ".\\a.py" = "./a.py" ∧
      index.resolve? ".\\a.py" "pkg/main.py" = none ∧
      index.resolve? "./a.py" "pkg/main.py" = some "pkg/a.py" ∧
      index.resolve? "../util" "pkg/main.py" = index.resolve? "..\\util" "pkg/main.py" := by
  intro rules index
  have hconvention : rules.convention ≠ .customResolver := by decide
  have hnames : index.lookup? (under "pkg" "\\a/py") = none := by
    rw [lookup?_eq_findSome?, find?_ofPaths_eq]
    decide +kernel
  have hpath : index.lookup? (under "pkg" ".\\a.py") = some "pkg/a.py" := by
    rw [lookup?_eq_findSome?, find?_ofPaths_eq]
    decide +kernel
  obtain ⟨-, hrelative, -⟩ := resolve?_slashed hconvention ".\\a.py" "pkg/main.py"
  obtain ⟨hback, hslash⟩ := hrelative 0 "\\a.py".toList (by decide) (by decide) (by decide) (by decide)
  obtain ⟨halike, -⟩ := resolve?_slashed hconvention "..\\util" "pkg/main.py"
  have hwritten : (trim "..\\util").toList = '.' :: '.' :: '\\' :: "util".toList := by decide
  exact ⟨by decide, hback.trans hnames, hslash.trans hpath,
    halike (.above _ hwritten (by decide) (by decide) (by decide))⟩

end FileIndex

end ImportAtlas
