import ImportAtlas.Proofs.Settings.Environment
import ImportAtlas.Proofs.Text.Blank
import ImportAtlas.Proofs.Text.Split
import Mathlib.Data.List.Forall2

/-!
# Lists in the environment

Five of the variables are lists. The items of a list are written with commas between them, and with any
blanks around each of them. A list is read back from what is written of it, item by item, if no item
has a comma in it or blanks of its own at its ends. The list of source roots keeps its empty items, of
which the empty text is one; the other lists have none, and the empty text is the empty list.

## Main definitions

* `ListSetting`: the settings that are lists, with the rules for their items
* `IsItem`, `Padded`, `WritesList`: items, and what is written of a list of them
* `Layer.list?`, `Layer.withList`: what a layer says of a list, and a layer in which a list is set

## Main results

* `ListSetting.read_eq`: a list is read back
* `Layer.list?_of_ofEnvironment`: the lists in the layer of the environment
* `Layer.ofEnvironment_eq_withList`: a list that is set in the environment
* `Layer.environment_lists_roundTrip`: what is read of an environment with a list in it
-/

namespace ImportAtlas

/-- The settings whose variables are lists. -/
inductive ListSetting where
  | extensions
  | sourceRoots
  | externalModules
  | dynamicPatterns
  | excludePatterns
  deriving DecidableEq, Repr

namespace ListSetting

/-- The variable of a list. -/
def source : ListSetting → Variable
  | extensions => .extensions
  | sourceRoots => .sourceRoots
  | externalModules => .externalModules
  | dynamicPatterns => .dynamicPatterns
  | excludePatterns => .exclude

/-- The list that a value is read as. -/
def read : ListSetting → String → List String
  | sourceRoots => commaItems
  | extensions | externalModules | dynamicPatterns | excludePatterns => commaList

/-- The lists that can be written: source roots may be empty texts, but there is at least one of them,
and the items of the other lists are not empty. -/
def Admits : ListSetting → List String → Prop
  | sourceRoots, items => items ≠ []
  | extensions, items | externalModules, items | dynamicPatterns, items | excludePatterns, items =>
    "" ∉ items

end ListSetting

/-- A text that can be an item of a list: it has no comma in it, and no blank at either end. -/
structure IsItem (item : String) : Prop where
  comma_not_mem : ',' ∉ item.toList
  first : ∀ c ∈ item.toList.head?, Text.isBlank c = false
  last : ∀ c ∈ item.toList.getLast?, Text.isBlank c = false

theorem isItem_iff {item : String} : IsItem item ↔ ',' ∉ item.toList ∧
    item.toList.head?.all (!Text.isBlank ·) = true ∧
      item.toList.getLast?.all (!Text.isBlank ·) = true := by
  simp only [Option.all_eq_true, Bool.not_eq_true']
  exact ⟨fun h => ⟨h.comma_not_mem, h.first, h.last⟩,
    fun ⟨hcomma, hfirst, hlast⟩ => ⟨hcomma, hfirst, hlast⟩⟩

instance (item : String) : Decidable (IsItem item) := decidable_of_iff' _ isItem_iff

/-- Whether a text is an item with any blanks around it. -/
def Padded (item piece : String) : Prop :=
  ∃ before after, Text.isBlankText before = true ∧ Text.isBlankText after = true ∧
    piece = before ++ item ++ after

/-- Whether a value is written of a list: the items, each with any blanks around it, with commas between
them. -/
def WritesList (items : List String) (value : String) : Prop :=
  ∃ pieces, List.Forall₂ Padded items pieces ∧ value = Text.joinWith "," pieces

/-- What a layer says of a list. -/
def Layer.list? (layer : Layer) : ListSetting → Option (List String)
  | .extensions => layer.extensions
  | .sourceRoots => layer.sourceRoots
  | .externalModules => layer.externalModules
  | .dynamicPatterns => layer.dynamicPatterns
  | .excludePatterns => layer.excludePatterns

/-- The layer in which a list is set. -/
def Layer.withList (layer : Layer) (items : List String) : ListSetting → Layer
  | .extensions => { layer with extensions := some items }
  | .sourceRoots => { layer with sourceRoots := some items }
  | .externalModules => { layer with externalModules := some items }
  | .dynamicPatterns => { layer with dynamicPatterns := some items }
  | .excludePatterns => { layer with excludePatterns := some items }

/-! ## Values -/

theorem IsItem.trim_eq {item : String} (h : IsItem item) : Text.trim item = item := by
  unfold Text.trim
  rw [Text.trimChars_eq_self h.first h.last, String.ofList_toList]

theorem Padded.trim_eq {item piece : String} (h : Padded item piece) (hitem : IsItem item) :
    Text.trim piece = item := by
  obtain ⟨before, after, hbefore, hafter, rfl⟩ := h
  rw [Text.trim_around hbefore hafter, hitem.trim_eq]

theorem Padded.comma_not_mem {item piece : String} (h : Padded item piece) (hitem : IsItem item) :
    ',' ∉ piece.toList := by
  obtain ⟨before, after, hbefore, hafter, rfl⟩ := h
  have hblank : ∀ {text : String}, Text.isBlankText text = true → ',' ∉ text.toList :=
    fun htext hmem => absurd (List.all_eq_true.mp htext ',' hmem) (by decide)
  simp only [String.toList_append, List.mem_append, not_or]
  exact ⟨⟨hblank hbefore, hitem.comma_not_mem⟩, hblank hafter⟩

/-- Pieces without commas are found again between the commas. -/
theorem commaItems_joinWith {pieces : List String} (hne : pieces ≠ [])
    (h : ∀ piece ∈ pieces, ',' ∉ piece.toList) :
    commaItems (Text.joinWith "," pieces) = pieces.map Text.trim := by
  have hfree : ∀ cs ∈ pieces.map String.toList, ∀ d ∈ cs, (d == ',') = false := by
    intro cs hcs d hd
    obtain ⟨piece, hpiece, rfl⟩ := List.mem_map.mp hcs
    rw [beq_eq_false_iff_ne]
    rintro rfl
    exact h piece hpiece hd
  have hsplit : Text.split (· == ',') (Text.join [','] (pieces.map String.toList)) =
      pieces.map String.toList :=
    Text.split_join rfl (by simpa using hne) hfree
  unfold commaItems Text.splitAtChar Text.joinWith
  rw [String.toList_ofList]
  change (List.map String.ofList (Text.split _ (Text.join [','] _))).map Text.trim = _
  rw [hsplit, List.map_map, List.map_map]
  exact List.map_congr_left fun piece _ => congrArg Text.trim String.ofList_toList

/-- The pieces of a written list are its items, but for the blanks. -/
theorem map_trim_of_padded {items pieces : List String} (h : List.Forall₂ Padded items pieces)
    (hitems : ∀ item ∈ items, IsItem item) :
    pieces.map Text.trim = items ∧ ∀ piece ∈ pieces, ',' ∉ piece.toList := by
  induction h with
  | nil => exact ⟨rfl, fun _ hp => nomatch hp⟩
  | cons hpadded _ ih =>
    obtain ⟨hitem, hlater⟩ := List.forall_mem_cons.mp hitems
    obtain ⟨htrim, hcomma⟩ := ih hlater
    exact ⟨by rw [List.map_cons, hpadded.trim_eq hitem, htrim],
      List.forall_mem_cons.mpr ⟨hpadded.comma_not_mem hitem, hcomma⟩⟩

theorem commaItems_eq {items : List String} {value : String} (hwrites : WritesList items value)
    (hne : items ≠ []) (hitems : ∀ item ∈ items, IsItem item) : commaItems value = items := by
  obtain ⟨pieces, hpadded, rfl⟩ := hwrites
  obtain ⟨htrim, hcomma⟩ := map_trim_of_padded hpadded hitems
  have hpieces : pieces ≠ [] := by
    rintro rfl
    exact hne htrim.symm
  rw [commaItems_joinWith hpieces hcomma, htrim]

theorem commaList_eq {items : List String} {value : String} (hwrites : WritesList items value)
    (hempty : "" ∉ items) (hitems : ∀ item ∈ items, IsItem item) : commaList value = items := by
  by_cases hne : items = []
  · -- Nothing is written of the empty list, and splitting it gives one empty piece.
    subst hne
    obtain ⟨pieces, hpadded, rfl⟩ := hwrites
    obtain rfl := List.forall₂_nil_left_iff.mp hpadded
    decide
  · unfold commaList
    rw [commaItems_eq hwrites hne hitems, List.filter_eq_self]
    intro item hitem
    have hitem' : item ≠ "" := ne_of_mem_of_not_mem hitem hempty
    simpa using hitem'

/-- **A list is read back**, whichever setting it is for. -/
theorem ListSetting.read_eq (list : ListSetting) {items : List String} {value : String}
    (hwrites : WritesList items value) (hadmits : list.Admits items)
    (hitems : ∀ item ∈ items, IsItem item) : list.read value = items := by
  cases list with
  | sourceRoots => exact commaItems_eq hwrites hadmits hitems
  | extensions | externalModules | dynamicPatterns | excludePatterns =>
    exact commaList_eq hwrites hadmits hitems

/-! ## Environments -/

namespace Layer

variable {stem value : String} {lookup other : String → Option String}

/-- A list in the layer of the environment is what its variable is read as. -/
theorem list?_of_ofEnvironment {layer : Layer} (h : ofEnvironment stem lookup = .ok layer)
    (list : ListSetting) :
    layer.list? list = (lookup (list.source.name stem)).map list.read := by
  unfold ofEnvironment at h
  simp only [Outcome.bind_eq_ok_iff] at h
  obtain ⟨_, -, _, -, _, -, _, -, _, -, hlayer⟩ := h
  obtain rfl := Except.ok.inj hlayer
  cases list <;> rfl

/-- Of a list other than the source roots, no empty item is read. -/
theorem empty_not_mem_of_ofEnvironment {layer : Layer} (h : ofEnvironment stem lookup = .ok layer)
    (list : ListSetting) (hlist : list ≠ .sourceRoots) : "" ∉ (layer.list? list).getD [] := by
  have hread : list.read = commaList := by
    cases list
    case sourceRoots => exact absurd rfl hlist
    all_goals rfl
  rw [list?_of_ofEnvironment h, hread]
  cases lookup (list.source.name stem) with
  | none => exact List.not_mem_nil
  | some value => exact fun hmem => absurd (List.mem_filter.mp hmem).2 (by decide)

/-- **A list in the environment** is all that its variable adds to what the other variables say. -/
theorem ofEnvironment_eq_withList (list : ListSetting)
    (hset : lookup (list.source.name stem) = some value)
    (hothers : ∀ setting, setting ≠ list.source →
      lookup (setting.name stem) = other (setting.name stem)) :
    ofEnvironment stem lookup = (·.withList (list.read value) list) <$> ofEnvironment stem other := by
  have hlookup : ∀ setting : Variable, lookup (setting.name stem) =
      if setting = list.source then some value else other (setting.name stem) := by
    intro setting
    split
    · next hsource => rw [hsource, hset]
    · next hsource => exact hothers setting hsource
  -- The variable of the list cannot be faulty, so the first fault is the same with and without it.
  unfold ofEnvironment readVariable
  simp only [hlookup, map_bind, map_pure]
  cases list <;> rfl

/-- **Lists in the environment are read back**: of a list that a variable is set to, with any blanks
around the items, exactly the items arrive in its own setting. If no other variable is set, nothing else
is said of any setting, and otherwise what is said is what the other variables say, errors included. -/
theorem environment_lists_roundTrip (list : ListSetting) {items : List String}
    (hwrites : WritesList items value) (hadmits : list.Admits items)
    (hitems : ∀ item ∈ items, IsItem item) (hset : lookup (list.source.name stem) = some value) :
    ((∀ setting ∈ Variable.all, setting ≠ list.source → lookup (setting.name stem) = none) →
      ofEnvironment stem lookup = .ok (empty.withList items list)) ∧
    ∀ other : String → Option String,
      (∀ setting ∈ Variable.all, setting ≠ list.source →
        lookup (setting.name stem) = other (setting.name stem)) →
      ofEnvironment stem lookup = (·.withList items list) <$> ofEnvironment stem other := by
  have hothers : ∀ other : String → Option String,
      (∀ setting ∈ Variable.all, setting ≠ list.source →
        lookup (setting.name stem) = other (setting.name stem)) →
      ofEnvironment stem lookup = (·.withList items list) <$> ofEnvironment stem other := by
    intro other h
    rw [ofEnvironment_eq_withList list hset fun setting => h setting (Variable.mem_all setting),
      list.read_eq hwrites hadmits hitems]
  exact ⟨fun h => hothers (fun _ => none) h, hothers⟩

/-- Source roots that begin and end with the top, beside a limit, and the empty list of modules. -/
theorem environment_lists_roundTrip_top :
    let roots : Dictionary String :=
      .ofEntries [("DEPSCOPE_MAX_NODES", "5"), ("DEPSCOPE_SOURCE_ROOTS", " ,\tsrc/a b ,lib,")]
    let limit : Dictionary String := .ofEntries [("DEPSCOPE_MAX_NODES", "5")]
    let modules : Dictionary String := .ofEntries [("X_EXTERNAL_MODULES", "")]
    ofEnvironment variableStem roots.get? =
        (·.withList ["", "src/a b", "lib", ""] .sourceRoots) <$> ofEnvironment variableStem limit.get? ∧
      ofEnvironment variableStem roots.get? =
        .ok { maxNodes := some 5, sourceRoots := some ["", "src/a b", "lib", ""] } ∧
      ofEnvironment "X" modules.get? = .ok { externalModules := some [] } := by
  intro roots limit modules
  have hpadded : List.Forall₂ Padded ["", "src/a b", "lib", ""] [" ", "\tsrc/a b ", "lib", ""] :=
    .cons ⟨" ", "", by decide⟩ (.cons ⟨"\t", " ", by decide⟩
      (.cons ⟨"", "", by decide⟩ (.cons ⟨"", "", by decide⟩ .nil)))
  have hitems : ∀ item ∈ ["", "src/a b", "lib", ""], IsItem item := by decide
  have hroots : ofEnvironment variableStem roots.get? =
      (·.withList ["", "src/a b", "lib", ""] .sourceRoots) <$>
        ofEnvironment variableStem limit.get? :=
    (environment_lists_roundTrip .sourceRoots ⟨_, hpadded, rfl⟩ (List.cons_ne_nil _ _) hitems
      (by decide)).2 limit.get? (by decide)
  have hmodules : ofEnvironment "X" modules.get? = .ok (empty.withList [] .externalModules) :=
    (environment_lists_roundTrip .externalModules ⟨[], .nil, rfl⟩ List.not_mem_nil
      (fun _ hitem => nomatch hitem) (by decide)).1 (by decide)
  exact ⟨hroots, hroots.trans rfl, hmodules⟩

end Layer

end ImportAtlas
