import Mathlib.Data.Set.List
import ImportAtlas.Proofs.Codec.Members
import ImportAtlas.Proofs.Codec.Settings
import ImportAtlas.Proofs.Settings.Setting
import ImportAtlas.Toml.Table

/-!
# Settings in a document

What a layer says of a setting stands under the setting's key in a document of settings. A document
made of some of these members is read as the layer, if the layer says nothing of other settings.

## Main definitions

* `Setting.key`, `Setting.codec`: the key of a setting, and the codec of its values
* `Setting.document`: the document of a value of a setting
* `Layer.members`: what a layer says of some settings, as members of a document

## Main results

* `Layer.decode_mapDocument_eq_ok_iff`: a layer is read setting by setting
* `Layer.decode_members`: a layer is read back from its members
* `Layer.decode_aliases_eq_ok_iff`, `Layer.decode_members_aliases_eq_ok_iff`: what is read of settings
  that stand among aliases, and beside aliases
-/

namespace ImportAtlas

open Codec
open Toml.Table (mapDocument)

namespace Setting

/-- All settings, in the order of the members of a document. -/
def all : List Setting :=
  [.convention, .extensions, .indexFiles, .sourceRoots, .aliases, .externalModules,
    .dynamicPatterns, .excludePatterns, .maxNodes, .outputFormat, .outputFile, .parallel, .threads,
    .quiet, .verbose, .useColors, .showProgress]

/-- The key of a setting. -/
def key : Setting → String
  | convention => "convention"
  | extensions => "extensions"
  | indexFiles => "index_files"
  | sourceRoots => "source_roots"
  | aliases => "aliases"
  | externalModules => "external_modules"
  | dynamicPatterns => "dynamic_patterns"
  | excludePatterns => "exclude_patterns"
  | maxNodes => "max_nodes"
  | outputFormat => "output_format"
  | outputFile => "output_file"
  | parallel => "parallel"
  | threads => "threads"
  | quiet => "quiet"
  | verbose => "verbose"
  | useColors => "use_colors"
  | showProgress => "show_progress"

/-- The codec of what a layer may say of a setting. -/
def codec : (setting : Setting) → Codec setting.Said
  | convention => Convention.codec
  | extensions | indexFiles | sourceRoots | externalModules | dynamicPatterns | excludePatterns =>
    text.list
  | aliases => text.dictionary
  | maxNodes | threads => count
  | outputFormat => OutputFormat.codec
  | outputFile => path
  | parallel | quiet | verbose | useColors | showProgress => boolean

/-- The document of what a layer says of a setting. -/
def document : (setting : Setting) → setting.Said → Document
  | convention, said => .ofText said.name
  | extensions, said | indexFiles, said | sourceRoots, said | externalModules, said
  | dynamicPatterns, said | excludePatterns, said => .ofItems (said.map .ofText)
  | aliases, said => .ofMembers (said.entries.map fun entry => (entry.1, .ofText entry.2))
  | maxNodes, said | threads, said => .ofScalar (.integer said)
  | outputFormat, said => .ofText said.name
  | outputFile, said => .ofText said
  | parallel, said | quiet, said | verbose, said | useColors, said | showProgress, said =>
    .ofScalar (.boolean said)

theorem mem_all (setting : Setting) : setting ∈ all := by
  cases setting <;> decide

theorem key_injective : Function.Injective key := fun first second h =>
  List.inj_on_of_nodup_map (by decide : (all.map key).Nodup) (mem_all first) (mem_all second) h

theorem document_ne_null {setting : Setting} (said : setting.Said) (fault : Option ReadError) :
    setting.document said ≠ .null fault := by
  cases setting <;> exact Document.noConfusion

/-- Only names of choices could be read in more than one way. -/
theorem agrees_document {setting : Setting} (said : setting.Said) :
    setting.codec.Agrees (setting.document said) := by
  cases setting <;> rfl

/-- Of the documents of settings, the texts are read as texts. -/
theorem document_eq_ofText {setting : Setting} {said : setting.Said} {word : String}
    (h : text.decode .json (setting.document said) = .ok word) :
    setting.document said = .ofText word := by
  cases setting <;> cases h <;> rfl

/-- All values of a dictionary of texts are texts. -/
theorem exists_text_of_decode {members : List (String × Document)} {texts : Dictionary String}
    (h : text.dictionary.decode .json (.ofMembers members) = .ok texts) :
    ∀ member ∈ members, ∃ word, text.decode .json member.2 = .ok word := by
  obtain ⟨entries, hentries, -⟩ := decode_dictionary_eq_ok_iff.mp h
  have hreads : List.Forall₂ (fun (member : String × Document) (entry : String × String) =>
      (∃ word, text.decode .json member.2 = .ok word) ∧ member.1 = entry.1) members entries :=
    hentries.imp fun _ entry he => ⟨⟨entry.2, he.2⟩, he.1⟩
  exact ((List.forall₂_and_left _ _).mp hreads).1

/-- Texts as members of a document. -/
def textMembers (texts : List (String × String)) : List (String × Document) :=
  texts.map fun entry => (entry.1, .ofText entry.2)

theorem map_fst_textMembers (texts : List (String × String)) :
    (textMembers texts).map (·.1) = texts.map (·.1) :=
  List.map_map

theorem mapDocument_textMembers (texts : List (String × String)) :
    mapDocument (textMembers texts) = aliases.document (Dictionary.ofEntries texts) :=
  congrArg Document.ofMembers (Dictionary.entries_ofEntries_map _ texts)

theorem decode_document_aliases (texts : Dictionary String) :
    text.dictionary.decode .json (aliases.document texts) = .ok texts := by
  refine decode_dictionary_eq_ok_iff.mpr ⟨texts.entries, ?_, Dictionary.ofEntries_entries texts⟩
  rw [List.forall₂_map_left_iff, List.forall₂_same]
  exact fun _ _ => ⟨rfl, rfl⟩

/-- Texts are read as a dictionary of them. -/
theorem decode_textMembers (texts : List (String × String)) :
    text.dictionary.optional.decode .json (mapDocument (textMembers texts)) =
      .ok (some (Dictionary.ofEntries texts)) := by
  rw [mapDocument_textMembers, decode_optional (document_ne_null _), decode_document_aliases]
  rfl

end Setting

namespace Layer

theorem decode_toml_eq_ok_iff {members : List (String × Document)} {layer : Layer}
    (hdistinct : (members.map (·.1)).Nodup)
    (hknown : ∀ member ∈ members, member.1 ∈ Setting.all.map Setting.key)
    (hagrees : ∀ member ∈ members, ∀ setting : Setting, setting.key = member.1 →
      setting.codec.Agrees member.2) :
    codec.decode .toml (.ofMembers members) = .ok layer ↔
      ∀ setting : Setting,
        (nullable setting.key setting.codec).Gives (members.lookup setting.key)
          (layer.get? setting) := by
  unfold codec
  rw [decode_toml_record_eq_ok_iff (fun _ => rfl) (fun _ => rfl) ?_ hdistinct ?_ ?_]
  · -- The fields of the codec stand in the order of the settings, one for each.
    constructor
    · rintro ⟨h₁, h₂, h₃, h₄, h₅, h₆, h₇, h₈, h₉, h₁₀, h₁₁, h₁₂, h₁₃, h₁₄, h₁₅, h₁₆, h₁₇, -⟩ setting
      cases setting <;> assumption
    · intro h
      exact ⟨h .convention, h .extensions, h .indexFiles, h .sourceRoots, h .aliases,
        h .externalModules, h .dynamicPatterns, h .excludePatterns, h .maxNodes, h .outputFormat,
        h .outputFile, h .parallel, h .threads, h .quiet, h .verbose, h .useColors,
        h .showProgress, trivial⟩
  · decide
  · exact hknown
  · intro member hm
    have hread := fun (setting : Setting) he => agrees_optional (hagrees member hm setting he)
    exact ⟨hread .convention, hread .extensions, hread .indexFiles, hread .sourceRoots,
      hread .aliases, hread .externalModules, hread .dynamicPatterns, hread .excludePatterns,
      hread .maxNodes, hread .outputFormat, hread .outputFile, hread .parallel, hread .threads,
      hread .quiet, hread .verbose, hread .useColors, hread .showProgress, trivial⟩

/-! ## The members of a layer -/

/-- What a layer says of some settings, as members of a document. -/
def members (layer : Layer) (settings : List Setting) : List (String × Document) :=
  settings.filterMap fun setting =>
    (layer.get? setting).map fun said => (setting.key, setting.document said)

variable {layer : Layer} {settings : List Setting}

theorem mem_members_iff {member : String × Document} :
    member ∈ layer.members settings ↔ ∃ setting ∈ settings, ∃ said,
      layer.get? setting = some said ∧ (setting.key, setting.document said) = member := by
  simp only [members, List.mem_filterMap, Option.map_eq_some_iff]

theorem map_fst_members :
    (layer.members settings).map (·.1) =
      (settings.filter fun setting => (layer.get? setting).isSome).map Setting.key := by
  induction settings with
  | nil => rfl
  | cons setting settings ih =>
    unfold members at ih ⊢
    rw [List.filterMap_cons, List.filter_cons]
    cases layer.get? setting with
    | none => exact ih
    | some said => exact congrArg (setting.key :: ·) ih

theorem nodup_members (h : settings.Nodup) : ((layer.members settings).map (·.1)).Nodup := by
  rw [map_fst_members]
  exact (h.filter _).map Setting.key_injective

theorem members_append (more : List Setting) :
    layer.members (settings ++ more) = layer.members settings ++ layer.members more :=
  List.filterMap_append

/-- What a layer says of a setting is read back from its document. -/
theorem decode_document (hrange : layer.InRange) {setting : Setting} {said : setting.Said}
    (h : layer.get? setting = some said) :
    setting.codec.decode .json (setting.document said) = .ok said := by
  have htexts : ∀ values : List String,
      text.list.decode .json (.ofItems (values.map .ofText)) = .ok values := by
    intro values
    refine readItems_eq_ok_iff.mpr ?_
    rw [List.forall₂_map_left_iff, List.forall₂_same]
    exact fun _ _ => rfl
  have hcount : ∀ {n : Nat}, n ≤ Text.maxCount →
      count.decode .json (.ofScalar (.integer n)) = .ok n := by
    intro n hn
    exact if_pos ⟨Int.natCast_nonneg n, Int.ofNat_le.mpr hn⟩
  cases setting with
  | convention => exact Convention.readsBack said
  | outputFormat => exact OutputFormat.readsBack said
  | extensions | indexFiles | sourceRoots | externalModules | dynamicPatterns | excludePatterns =>
    exact htexts said
  | aliases => exact Setting.decode_document_aliases said
  | maxNodes => exact hcount (hrange.maxNodes said h)
  | threads => exact hcount (hrange.threads said h)
  | outputFile | parallel | quiet | verbose | useColors | showProgress => rfl

/-- What is read of a setting, if what is found under its key is what a layer says of it. -/
theorem gives_document_iff (hrange : layer.InRange) {setting : Setting}
    {said : Option setting.Said} (hsaid : ∀ value ∈ said, layer.get? setting = some value)
    {value : Option setting.Said} :
    (nullable setting.key setting.codec).Gives (said.map setting.document) value ↔
      value = said := by
  cases said with
  | none => simp [RecordField.Gives, nullable, Absence.inObject, eq_comm]
  | some said =>
    have hread : setting.codec.optional.decode .json (setting.document said) = .ok (some said) := by
      rw [decode_optional (Setting.document_ne_null said), decode_document hrange (hsaid said rfl)]
      rfl
    change setting.codec.optional.decode .json (setting.document said) = .ok value ↔ _
    rw [hread, Except.ok.injEq, eq_comm]

/-- A layer is read setting by setting from entries with distinct keys. -/
theorem decode_mapDocument_eq_ok_iff {entries : List (String × Document)}
    (hdistinct : (entries.map (·.1)).Nodup)
    (hknown : ∀ entry ∈ entries, entry.1 ∈ Setting.all.map Setting.key)
    (hagrees : ∀ entry ∈ entries, ∀ setting : Setting, setting.key = entry.1 →
      setting.codec.Agrees entry.2) :
    codec.decode .toml (mapDocument entries) = .ok layer ↔
      ∀ setting : Setting,
        (nullable setting.key setting.codec).Gives ((Dictionary.ofEntries entries).get? setting.key)
          (layer.get? setting) := by
  have hmem := Dictionary.mem_entries_ofEntries_iff hdistinct
  exact decode_toml_eq_ok_iff (Dictionary.nodup_keys _)
    (fun entry he => hknown entry ((hmem entry).mp he))
    fun entry he => hagrees entry ((hmem entry).mp he)

/-- What is found under the key of a setting among what a layer says of some settings. -/
theorem get?_ofEntries_members {more : List (String × Document)}
    (hdistinct : ((layer.members settings ++ more).map (·.1)).Nodup) {setting : Setting}
    (hmore : ∀ entry ∈ more, entry.1 ≠ setting.key) :
    (Dictionary.ofEntries (layer.members settings ++ more)).get? setting.key =
      (if setting ∈ settings then layer.get? setting else none).map setting.document := by
  refine Option.ext fun document => ?_
  rw [Dictionary.get?_eq_some_iff, Dictionary.mem_entries_ofEntries_iff hdistinct,
    List.mem_append, mem_members_iff, or_iff_left fun h => hmore _ h rfl, Option.map_eq_some_iff]
  constructor
  · rintro ⟨other, ho, said, hsaid, he⟩
    obtain ⟨hkey, rfl⟩ := Prod.mk.inj he
    obtain rfl := Setting.key_injective hkey
    exact ⟨said, (if_pos ho).trans hsaid, rfl⟩
  · rintro ⟨said, hsaid, rfl⟩
    split at hsaid
    · next hs => exact ⟨setting, hs, said, hsaid, rfl⟩
    · cases hsaid

theorem known_members {entry : String × Document} (h : entry ∈ layer.members settings) :
    entry.1 ∈ Setting.all.map Setting.key := by
  obtain ⟨setting, -, said, -, rfl⟩ := mem_members_iff.mp h
  exact List.mem_map_of_mem setting.mem_all

theorem agrees_members {entry : String × Document} (h : entry ∈ layer.members settings)
    {setting : Setting} (hkey : setting.key = entry.1) : setting.codec.Agrees entry.2 := by
  obtain ⟨other, -, said, -, rfl⟩ := mem_members_iff.mp h
  obtain rfl := Setting.key_injective hkey
  exact Setting.agrees_document said

/-- **A layer is read back from its members**, if it says nothing of other settings. -/
theorem decode_members (hrange : layer.InRange) (hdistinct : settings.Nodup)
    (hsaid : ∀ setting, setting ∉ settings → layer.get? setting = none) :
    codec.decode .toml (mapDocument (layer.members settings)) = .ok layer := by
  have hnodup : ((layer.members settings ++ []).map Prod.fst).Nodup := by
    rw [List.append_nil]
    exact nodup_members hdistinct
  rw [decode_mapDocument_eq_ok_iff (nodup_members hdistinct) (fun _ => known_members)
    fun _ he _ => agrees_members he]
  intro setting
  have hfound := @get?_ofEntries_members _ _ _ hnodup setting (List.forall_mem_nil _)
  have hall : (if setting ∈ settings then layer.get? setting else none) = layer.get? setting := by
    split
    · rfl
    · next hs => exact (hsaid setting hs).symm
  rw [List.append_nil, hall] at hfound
  rw [hfound]
  exact (gives_document_iff hrange fun _ hvalue => hvalue).mpr rfl

theorem key_not_mem_members {setting : Setting} (h : setting ∉ settings) :
    setting.key ∉ (layer.members settings).map (·.1) := by
  rw [map_fst_members, List.mem_map]
  rintro ⟨other, ho, hkey⟩
  obtain rfl := Setting.key_injective hkey
  exact h (List.mem_of_mem_filter ho)

/-- **Settings among aliases** are read as aliases if all of them are texts, and not at all
otherwise. -/
theorem decode_aliases_eq_ok_iff {texts : List (String × String)}
    (hdistinct : ((Setting.textMembers texts ++ layer.members settings).map (·.1)).Nodup)
    {found : Option (Dictionary String)} :
    text.dictionary.optional.decode .json
        (mapDocument (Setting.textMembers texts ++ layer.members settings)) = .ok found ↔
      ∃ more, layer.members settings = Setting.textMembers more ∧
        found = some (Dictionary.ofEntries (texts ++ more)) := by
  have hdecode : ∀ more : List (String × String), text.dictionary.optional.decode .json
      (mapDocument (Setting.textMembers texts ++ Setting.textMembers more)) =
        .ok (some (Dictionary.ofEntries (texts ++ more))) := by
    intro more
    rw [← Setting.decode_textMembers, Setting.textMembers, Setting.textMembers, ← List.map_append]
    rfl
  constructor
  · intro h
    -- Each value is read as a text, which of the documents of settings only texts are.
    have htext : ∀ member ∈ layer.members settings,
        ∃ entry : String × String, (entry.1, Document.ofText entry.2) = member := by
      intro member hm
      rw [decode_optional fun _ => Document.noConfusion, Outcome.map_eq_ok_iff] at h
      obtain ⟨d, hd, -⟩ := h
      have hread := (Dictionary.mem_entries_ofEntries_iff hdistinct member).mpr
        (List.mem_append_right _ hm)
      obtain ⟨word, hword⟩ := Setting.exists_text_of_decode hd member hread
      obtain ⟨setting, -, said, -, rfl⟩ := mem_members_iff.mp hm
      exact ⟨(setting.key, word), Prod.ext rfl (Setting.document_eq_ofText hword).symm⟩
    obtain ⟨more, hmore⟩ := (Set.range_list_map _).superset htext
    refine ⟨more, hmore.symm, ?_⟩
    rw [← hmore] at h
    exact Except.ok.inj (h.symm.trans (hdecode more))
  · rintro ⟨more, hmore, rfl⟩
    rw [hmore]
    exact hdecode more

/-- **What is read beside a document of aliases.** The other settings are read back from their
members, and the aliases are what that document says. -/
theorem decode_members_aliases_eq_ok_iff (hrange : layer.InRange) (hdistinct : settings.Nodup)
    (haliases : .aliases ∉ settings) {aliases : Document} {read : Layer} :
    codec.decode .toml
        (mapDocument (layer.members settings ++ [(Setting.aliases.key, aliases)])) = .ok read ↔
      text.dictionary.optional.decode .json aliases = .ok read.aliases ∧
        ∀ setting ≠ .aliases,
          read.get? setting = if setting ∈ settings then layer.get? setting else none := by
  have hnodup : ((layer.members settings ++ [(Setting.aliases.key, aliases)]).map (·.1)).Nodup := by
    rw [List.map_append, List.nodup_append]
    refine ⟨nodup_members hdistinct, List.nodup_singleton _, fun key hkey other ho => ?_⟩
    obtain rfl := List.mem_singleton.mp ho
    exact ne_of_mem_of_not_mem hkey (key_not_mem_members haliases)
  have hknown : ∀ entry ∈ layer.members settings ++ [(Setting.aliases.key, aliases)],
      entry.1 ∈ Setting.all.map Setting.key :=
    List.forall_mem_append.mpr ⟨fun _ => known_members, List.forall_mem_singleton.mpr
      (List.mem_map_of_mem (Setting.mem_all .aliases))⟩
  have hagrees : ∀ entry ∈ layer.members settings ++ [(Setting.aliases.key, aliases)],
      ∀ setting : Setting, setting.key = entry.1 → setting.codec.Agrees entry.2 := by
    refine List.forall_mem_append.mpr ⟨fun _ he _ => agrees_members he,
      List.forall_mem_singleton.mpr fun setting hkey => ?_⟩
    obtain rfl : setting = .aliases := Setting.key_injective hkey
    exact agrees_dictionary aliases
  have hfound : (Dictionary.ofEntries
      (layer.members settings ++ [(Setting.aliases.key, aliases)])).get? Setting.aliases.key =
        some aliases := by
    rw [Dictionary.get?_eq_some_iff, Dictionary.mem_entries_ofEntries_iff hnodup]
    exact List.mem_append_right _ List.mem_cons_self
  have hother : ∀ setting ≠ Setting.aliases,
      ((nullable setting.key setting.codec).Gives ((Dictionary.ofEntries
          (layer.members settings ++ [(Setting.aliases.key, aliases)])).get? setting.key)
          (read.get? setting) ↔
        read.get? setting = if setting ∈ settings then layer.get? setting else none) := by
    intro setting hne
    rw [get?_ofEntries_members hnodup
      (List.forall_mem_singleton.mpr (Setting.key_injective.ne hne.symm))]
    refine gives_document_iff hrange fun value hvalue => ?_
    split at hvalue
    · exact hvalue
    · cases hvalue
  rw [decode_mapDocument_eq_ok_iff hnodup hknown hagrees]
  constructor
  · intro h
    have haliases := h .aliases
    rw [hfound] at haliases
    exact ⟨haliases, fun setting hne => (hother setting hne).mp (h setting)⟩
  · rintro ⟨haliases, hothers⟩ setting
    by_cases hne : setting = .aliases
    · subst hne
      rw [hfound]
      exact haliases
    · exact (hother setting hne).mpr (hothers setting hne)

end Layer

end ImportAtlas
