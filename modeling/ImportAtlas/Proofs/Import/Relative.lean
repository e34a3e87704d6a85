import ImportAtlas.Proofs.Import.Exact

/-!
# Relative imports

A relative import is written with dots or with slashes, and stands for one base path. As long as it does
not leave the top, both ways of writing lead to the same base path, so a file is reached from any other
one by going up to a directory that holds both and down again. Above the top the two part: slashes lead
out of the repository and find nothing, while further dots stay at the top, where names are found again.

## Main definitions

* `Import.dotted`: a relative import written with dots
* `Import.IsPlain`: the names that either way of writing can hold

## Main results

* `relativeBase_dots`, `relativeBase_of_slash`: the base paths of texts without and with a slash
* `relativeBase_dotted`, `relativeBase_ascend`: the base paths of the two ways of writing
* `resolve?_of_isRelative`: a relative import is looked up at its base path
* `resolve?_dotted`: how far the two ways of writing agree
* `resolve?_ascend_common`: a file is reached from another one through any directory that holds both
-/

namespace ImportAtlas

open ImportAtlas.Path Text

namespace Import

/-- The relative import of some dots and then names with dots between them. -/
def dotted (dots : Nat) (names : List (List Char)) : String :=
  String.ofList (List.replicate dots '.' ++ join ['.'] names)

/-- A name without the characters that mean something in an import text. -/
structure IsPlain (name : List Char) : Prop where
  ne_nil : name ≠ []
  plain : ∀ c ∈ name, c ≠ '.' ∧ c ≠ '/' ∧ c ≠ '\\' ∧ isBlank c = false

instance (name : List Char) : Decidable (IsPlain name) :=
  decidable_of_iff (name ≠ [] ∧
      name.all fun c => c ≠ '.' ∧ c ≠ '/' ∧ c ≠ '\\' ∧ isBlank c = false)
    ⟨fun ⟨hne, hplain⟩ => ⟨hne, by simpa using hplain⟩,
      fun ⟨hne, hplain⟩ => ⟨hne, by simpa using hplain⟩⟩

variable {names : List (List Char)} {name : List Char} {text : String}

theorem IsPlain.dot_not_mem (h : IsPlain name) : '.' ∉ name :=
  fun hm => (h.plain '.' hm).1 rfl

theorem IsPlain.isName (h : IsPlain name) : IsName name := by
  refine ⟨⟨h.ne_nil, ?_⟩, ?_, ?_⟩
  · rintro rfl
    exact h.dot_not_mem List.mem_cons_self
  · rintro rfl
    exact h.dot_not_mem List.mem_cons_self
  · intro c hc
    obtain ⟨-, hslash, hbackslash, -⟩ := h.plain c hc
    simp [isSeparator, hslash, hbackslash]

/-! ## The two ways of writing -/

theorem toList_dotted (dots : Nat) (names : List (List Char)) :
    (dotted dots names).toList = List.replicate dots '.' ++ join ['.'] names :=
  String.toList_ofList

theorem toList_ascend (levels : Nat) (names : List (List Char)) :
    (ascend levels names).toList =
      "./".toList ++ (List.replicate levels "../".toList).flatten ++ join ['/'] names :=
  String.toList_ofList

theorem isRelative_dotted (dots : Nat) (names : List (List Char)) :
    isRelative (dotted (dots + 1) names) = true := by
  unfold isRelative
  rw [toList_dotted]
  rfl

theorem isRelative_ascend (levels : Nat) (names : List (List Char)) :
    isRelative (ascend levels names) = true := by
  unfold isRelative
  rw [toList_ascend]
  rfl

theorem isBlank_eq_of_mem_join {between c : Char} (hbetween : isBlank between = false)
    (h : ∀ name ∈ names, IsPlain name) (hc : c ∈ join [between] names) : isBlank c = false := by
  rcases mem_of_mem_join hc with hc | ⟨name, hname, hc⟩
  · rw [List.mem_singleton.mp hc]
    exact hbetween
  · exact ((h name hname).plain c hc).2.2.2

/-- A text without blanks is trimmed. -/
theorem trim_eq_self (h : ∀ c ∈ text.toList, isBlank c = false) : trim text = text := by
  unfold trim
  rw [trimChars_eq_self (fun c hc => h c (List.mem_of_mem_head? hc))
    fun c hc => h c (List.mem_of_mem_getLast? hc), String.ofList_toList]

theorem trim_dotted (h : ∀ name ∈ names, IsPlain name) (dots : Nat) :
    trim (dotted dots names) = dotted dots names := by
  refine trim_eq_self fun c hc => ?_
  rw [toList_dotted] at hc
  rcases List.mem_append.mp hc with hc | hc
  · rw [List.eq_of_mem_replicate hc]
    rfl
  · exact isBlank_eq_of_mem_join rfl h hc

/-- The way up ends with a slash. -/
theorem getLast?_ups (levels : Nat) :
    ("./".toList ++ (List.replicate levels "../".toList).flatten).getLast? = some '/' := by
  cases levels with
  | zero => rfl
  | succ levels =>
    rw [List.replicate_succ', List.flatten_append, List.getLast?_append, List.getLast?_append]
    rfl

/-- What goes up and down has no blank at its ends if there is none at the end of the names. -/
theorem trim_ascend (h : ∀ c ∈ (join ['/'] names).getLast?, isBlank c = false) (levels : Nat) :
    trim (ascend levels names) = ascend levels names := by
  unfold trim
  rw [trimChars_eq_self, String.ofList_toList]
  · intro c hc
    rw [toList_ascend] at hc
    obtain rfl := Option.some.inj hc
    rfl
  · intro c hc
    rw [toList_ascend, List.getLast?_append, getLast?_ups] at hc
    cases hlast : (join ['/'] names).getLast? with
    | none =>
      rw [hlast, Option.none_or] at hc
      obtain rfl := Option.some.inj hc
      rfl
    | some last =>
      rw [hlast, Option.some_or] at hc
      exact h c (hlast ▸ hc)

/-! ## The base paths -/

theorem head?_join_ne_dot (h : ∀ name ∈ names, IsPlain name) :
    (join ['.'] names).head? ≠ some '.' := by
  cases names with
  | nil => exact Option.some_ne_none _ ∘ Eq.symm
  | cons name names =>
    have hname := h name List.mem_cons_self
    obtain ⟨first, rest, rfl⟩ := List.exists_cons_of_ne_nil hname.ne_nil
    have hfirst : (join ['.'] ((first :: rest) :: names)).head? = some first := by
      cases names <;> rfl
    rw [hfirst]
    exact fun heq => (hname.plain first List.mem_cons_self).1 (Option.some.inj heq)

/-- The dots in front, and what comes after them. -/
theorem span_dots {body : List Char} (h : body.head? ≠ some '.') (dots : Nat) :
    (List.replicate dots '.' ++ body).takeWhile (· == '.') = List.replicate dots '.' ∧
      (List.replicate dots '.' ++ body).dropWhile (· == '.') = body := by
  have hdots : ∀ c ∈ List.replicate dots '.', (c == '.') = true := by
    intro c hc
    exact beq_iff_eq.mpr (List.eq_of_mem_replicate hc)
  rw [List.takeWhile_append_of_pos hdots, List.dropWhile_append_of_pos hdots]
  cases body with
  | nil => exact ⟨List.append_nil _, rfl⟩
  | cons first body =>
    have hne : (first == '.') = false := beq_false_of_ne fun heq => h (congrArg some heq)
    rw [List.takeWhile_cons, List.dropWhile_cons, hne]
    exact ⟨List.append_nil _, rfl⟩

/-- **Dots after the first one lead up** if there is no slash, and what follows leads down from there,
dots being slashes in it. -/
theorem relativeBase_dots {body : List Char} {levels : Nat}
    (htext : text.toList = List.replicate (levels + 1) '.' ++ body) (hbody : body.head? ≠ some '.')
    (hslash : '/' ∉ body) (dir : String) :
    relativeBase dir text = under (parent^[levels] dir) (String.ofList (replaceChar '.' '/' body)) := by
  obtain ⟨hdots, hrest⟩ := span_dots hbody (levels + 1)
  have hpath : ¬text.toList.contains '/' = true := by
    rw [List.contains_iff_mem, htext]
    intro hm
    rcases List.mem_append.mp hm with hm | hm
    · exact absurd (List.eq_of_mem_replicate hm) (by decide)
    · exact hslash hm
  unfold relativeBase
  rw [if_neg hpath, htext]
  dsimp only
  rw [hdots, hrest, List.length_replicate, Nat.add_sub_cancel]

theorem relativeBase_dotted (h : ∀ name ∈ names, IsPlain name) (dir : String) (levels : Nat) :
    relativeBase dir (dotted (levels + 1) names) = under (parent^[levels] dir) (ofNames names) := by
  have hslash : '/' ∉ join ['.'] names := by
    intro hm
    rcases mem_of_mem_join hm with hm | ⟨name, hname, hm⟩
    · exact absurd (List.mem_singleton.mp hm) (by decide)
    · exact ((h name hname).plain _ hm).2.1 rfl
  rw [relativeBase_dots (toList_dotted _ names) (head?_join_ne_dot h) hslash,
    replaceChar_join fun name hname => (h name hname).dot_not_mem]
  rfl

/-- A text with a slash is a path from the directory as it is. -/
theorem relativeBase_of_slash (h : '/' ∈ text.toList) (dir : String) :
    relativeBase dir text = under dir text := by
  unfold relativeBase
  rw [if_pos (List.contains_iff_mem.mpr h)]

theorem relativeBase_ascend (dir : String) (levels : Nat) (names : List (List Char)) :
    relativeBase dir (ascend levels names) = under dir (ascend levels names) := by
  have hslash : '/' ∈ (ascend levels names).toList := by
    rw [toList_ascend]
    exact List.mem_cons_of_mem _ List.mem_cons_self
  exact relativeBase_of_slash hslash dir

end Import

namespace FileIndex

variable {rules : ImportRules} {paths : List String} {importer path text : String}
  {names common : List (List Char)}

/-- **A relative import is looked up at its base path**, by either of the first two conventions. -/
theorem resolve?_of_isRelative (hconvention : rules.convention ≠ .customResolver)
    (htrim : trim text = text) (hrelative : Import.isRelative text = true) (importer : String) :
    (ofPaths rules paths).resolve? text importer =
      (ofPaths rules paths).lookup? (Import.relativeBase (ofNames (directories importer)) text) := by
  have htext : ¬text.isEmpty = true := by
    rw [String.isEmpty_iff]
    rintro rfl
    cases hrelative
  rw [← parent_normalize, ← fromImporter?_of_isRelative _ hrelative]
  unfold resolve?
  dsimp only
  rw [htrim, if_neg htext]
  cases hrules : (ofPaths rules paths).rules.convention with
  | relativePath =>
    unfold relative?
    rw [if_pos hrelative]
  | packageRoot =>
    unfold package?
    rw [if_pos hrelative]
  | customResolver => exact absurd hrules hconvention

/-- The search for a relative import written with dots. -/
theorem resolve?_dotted_eq_lookup? (hconvention : rules.convention ≠ .customResolver)
    (hinside : IsInside importer) (hnames : ∀ name ∈ names, Import.IsPlain name) (levels : Nat) :
    (ofPaths rules paths).resolve? (Import.dotted (levels + 1) names) importer =
      (ofPaths rules paths).lookup? (ofNames ((directories importer).take
        ((directories importer).length - levels) ++ names)) := by
  have hdirs : ∀ dir ∈ directories importer, IsName dir :=
    fun _ => isName_of_mem_directories hinside
  rw [resolve?_of_isRelative hconvention (Import.trim_dotted hnames _)
      (Import.isRelative_dotted levels names), Import.relativeBase_dotted hnames,
    iterate_parent_ofNames fun dir hd hslash => ?_,
    under_ofNames_ofNames (fun dir hd => hdirs dir (List.mem_of_mem_take hd))
      fun name hn => (hnames name hn).isName]
  exact Bool.noConfusion ((hdirs dir hd).isSeparator_eq '/' hslash)

/-- The search for a relative import written with slashes. -/
theorem resolve?_ascend_eq_lookup? (hconvention : rules.convention ≠ .customResolver)
    (hinside : IsInside importer) (hnames : ∀ name ∈ names, IsName name)
    (hblank : ∀ c ∈ (join ['/'] names).getLast?, isBlank c = false) (levels : Nat) :
    (ofPaths rules paths).resolve? (ascend levels names) importer =
      (ofPaths rules paths).lookup? (ofNames ((directories importer).take
        ((directories importer).length - levels) ++
          (List.replicate (levels - (directories importer).length) up ++ names))) := by
  rw [resolve?_of_isRelative hconvention (Import.trim_ascend hblank levels)
      (Import.isRelative_ascend levels names), Import.relativeBase_ascend,
    under_ofNames_ascend (fun _ => isName_of_mem_directories hinside) hnames]

/-! ## Dots and slashes -/

/-- **Dots and slashes agree up to the top**, from any importing file that does not lie above it. Above
the top slashes find nothing, while dots look the names up at the top, however many dots there are. -/
theorem resolve?_dotted (hconvention : rules.convention ≠ .customResolver)
    (hinside : IsInside importer) (hnames : ∀ name ∈ names, Import.IsPlain name) (levels : Nat) :
    (levels ≤ (directories importer).length →
      (ofPaths rules paths).resolve? (Import.dotted (levels + 1) names) importer =
        (ofPaths rules paths).resolve? (ascend levels names) importer) ∧
    ((directories importer).length < levels →
      (ofPaths rules paths).resolve? (ascend levels names) importer = none ∧
        (ofPaths rules paths).resolve? (Import.dotted (levels + 1) names) importer =
          (ofPaths rules paths).lookup? (ofNames names)) := by
  have hdown : ∀ name ∈ names, IsName name := fun name hn => (hnames name hn).isName
  have hblank : ∀ c ∈ (join ['/'] names).getLast?, isBlank c = false :=
    fun _ hc => Import.isBlank_eq_of_mem_join rfl hnames (List.mem_of_mem_getLast? hc)
  rw [resolve?_dotted_eq_lookup? hconvention hinside hnames,
    resolve?_ascend_eq_lookup? hconvention hinside hdown hblank]
  constructor
  · intro hle
    rw [Nat.sub_eq_zero_of_le hle, List.replicate_zero, List.nil_append]
  · intro hlt
    rw [Nat.sub_eq_zero_of_le hlt.le, List.take_zero, List.nil_append, List.nil_append]
    refine ⟨lookup?_eq_none_of_climbs _ ?_, rfl⟩
    -- The base path is a normal form, with a climb in front.
    have hbase := under_ofNames_ascend (fun _ => isName_of_mem_directories hinside) hdown levels
    rw [Nat.sub_eq_zero_of_le hlt.le, List.take_zero, List.nil_append] at hbase
    rw [← hbase, normalize_under, hbase, ← Nat.succ_pred_eq_of_pos (Nat.sub_pos_of_lt hlt),
      List.replicate_succ, List.cons_append]
    exact climbs_ofNames_up _

/-- A directory that both files lie in, the top, and one level more, where a file of the top is found by
dots only. -/
theorem resolve?_dotted_above_top :
    let rules : ImportRules := {}
    let index := ofPaths rules ["pkg/core/engine.py", "pkg/util.py", "util.py"]
    index.resolve? "..util" "pkg/core/engine.py" = index.resolve? "./../util" "pkg/core/engine.py" ∧
      index.resolve? "...util" "pkg/core/engine.py" =
        index.resolve? "./../../util" "pkg/core/engine.py" ∧
      index.resolve? "./../../../util" "pkg/core/engine.py" = none ∧
      index.resolve? "....util" "pkg/core/engine.py" = some "util.py" := by
  intro rules index
  have hfound : index.lookup? "util" = some "util.py" := by
    rw [lookup?_eq_findSome?, find?_ofPaths_eq]
    decide +kernel
  have hconvention : rules.convention ≠ .customResolver := by decide
  have hinside : IsInside "pkg/core/engine.py" := by decide
  have hnames : ∀ name ∈ ["util".toList], Import.IsPlain name := by decide
  obtain ⟨hslashes, hdots⟩ :
      index.resolve? "./../../../util" "pkg/core/engine.py" = none ∧
        index.resolve? "....util" "pkg/core/engine.py" = index.lookup? "util" :=
    (resolve?_dotted hconvention hinside hnames 3).2 (by decide)
  exact ⟨(resolve?_dotted hconvention hinside hnames 1).1 (by decide),
    (resolve?_dotted hconvention hinside hnames 2).1 (by decide), hslashes, hdots.trans hfound⟩

/-! ## From one file to another -/

/-- **A file is reached from another one through any directory that holds both**, whatever the
extensions, index files and other files are: up to that directory, and down to the file. -/
theorem resolve?_ascend_common (hconvention : rules.convention ≠ .customResolver)
    (hinside : IsInside importer) (hmem : path ∈ paths)
    (hsole : ∀ other ∈ paths, normalize other = normalize path → other = path)
    (hne : normalize path ≠ "") (hclimbs : climbs (normalize path) = false)
    (hblank : ∀ c ∈ (normalize path).toList.getLast?, isBlank c = false)
    (himporter : common <+: directories importer) (hpath : common <+: directories path) :
    (ofPaths rules paths).resolve?
      (ascend ((directories importer).length - common.length) ((steps path).drop common.length))
      importer = some path := by
  obtain ⟨rest, hrest⟩ := hpath.trans (List.dropLast_prefix _)
  have hdown : rest ≠ [] := by
    -- The last segment of the path is below any directory that holds the file.
    rintro rfl
    rw [List.append_nil] at hrest
    have hlength := hpath.length_le
    unfold directories at hlength
    rw [List.length_dropLast, ← hrest] at hlength
    have hnil : common = [] := List.length_eq_zero_iff.mp (by omega)
    rw [normalize_eq_ofNames, ← hrest, hnil] at hne
    exact hne rfl
  have hnames : ∀ name ∈ rest, IsName name := by
    intro name hn
    exact isName_of_mem_steps (isInside_of_climbs_eq_false hclimbs)
      (hrest ▸ List.mem_append_right common hn)
  have hlast : ∀ c ∈ (join ['/'] rest).getLast?, isBlank c = false := by
    intro c hc
    refine hblank c ?_
    obtain ⟨start, hstart⟩ : join ['/'] rest <:+ join ['/'] (common ++ rest) :=
      join_suffix_join_append hdown common
    rw [normalize_eq_ofNames, toList_ofNames, ← hrest, ← hstart, List.getLast?_append, hc]
    rfl
  have hlength := himporter.length_le
  rw [← hrest, List.drop_left, resolve?_ascend_eq_lookup? hconvention hinside hnames hlast,
    Nat.sub_sub_self hlength, ← List.prefix_iff_eq_take.mp himporter,
    Nat.sub_eq_zero_of_le (Nat.sub_le _ _), List.replicate_zero, List.nil_append, hrest]
  exact lookup?_ofPaths_eq_some rules hmem hsole hne hclimbs (normalize_normalize path)

/-- Files of one directory, one of them written oddly and with a blank in its name, next to files that an
extension or an index file leads to. -/
theorem resolve?_ascend_common_odd :
    let rules : ImportRules := { convention := .packageRoot }
    let paths := ["web/lib/a b.js/index.py", "web/lib/a b.js.py", "web\\lib//./a b.js"]
    let index := ofPaths rules paths
    directories "web/app\\main.js" = ["web".toList, "app".toList] ∧
      steps "web\\lib//./a b.js" = ["web".toList, "lib".toList, "a b.js".toList] ∧
      index.resolve? "./../lib/a b.js" "web/app\\main.js" = some "web\\lib//./a b.js" ∧
      index.resolve? "./../../web/lib/a b.js" "web/app\\main.js" = some "web\\lib//./a b.js" := by
  intro rules paths index
  have hconvention : rules.convention ≠ .customResolver := by decide
  have hinside : IsInside "web/app\\main.js" := by decide
  have hmem : "web\\lib//./a b.js" ∈ paths := by decide
  have hsole : ∀ other ∈ paths, normalize other = normalize "web\\lib//./a b.js" →
      other = "web\\lib//./a b.js" := by decide
  have hlast : (normalize "web\\lib//./a b.js").toList.getLast? = some 's' := by decide
  have hblank : ∀ c ∈ (normalize "web\\lib//./a b.js").toList.getLast?, isBlank c = false := by
    rw [hlast]
    rintro c ⟨⟩
    rfl
  have hreach : ∀ common, common <+: directories "web/app\\main.js" →
      common <+: directories "web\\lib//./a b.js" →
      index.resolve? (ascend ((directories "web/app\\main.js").length - common.length)
        ((steps "web\\lib//./a b.js").drop common.length)) "web/app\\main.js" =
          some "web\\lib//./a b.js" :=
    fun _ => resolve?_ascend_common hconvention hinside hmem hsole (by decide) (by decide) hblank
  exact ⟨by decide, by decide, hreach ["web".toList] (by decide) (by decide),
    hreach [] (by decide) (by decide)⟩

end FileIndex

end ImportAtlas
