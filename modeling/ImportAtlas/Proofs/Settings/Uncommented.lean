import ImportAtlas.Proofs.Settings.Template
import ImportAtlas.Proofs.Settings.Validated
import ImportAtlas.Proofs.Toml.Spellings
import ImportAtlas.Settings.Source

/-!
# What an uncommented settings file says

What is written into the settings file is read back, if its aliases stay commented out. The header
of the aliases makes entries of the aliases of all lines below it, though, and most settings stand
there. So a file with aliases says what is written into it if nothing below them is set. Otherwise
it is refused, or the settings become aliases.

## Main results

* `Layer.ofToml_eq_ok_iff`: the layer of a settings file
* `Template.Edit.exists_writes_iff`: what can be written into the file
* `Template.Edit.ofToml_file`: what an edited file says
-/

namespace ImportAtlas

/-! ## Reading a settings file -/

/-- A text is read if it is a document and the document can be decoded. -/
theorem Toml.read_eq_ok_iff {α : Type} {codec : Codec α} {s : String} {value : α} :
    read codec s = .ok value ↔
      ∃ document, parse? s = some document ∧ codec.decode .toml document = .ok value := by
  unfold read
  cases parse? s with
  | none => simp
  | some document => cases hdecode : codec.decode .toml document <;> simp [hdecode]

namespace Layer

/-- A settings file gives the layer of its document, if that is valid. -/
theorem ofToml_eq_ok_iff {path s : String} {layer : Layer} :
    ofToml path s = .ok layer ↔
      (∃ document, Toml.parse? s = some document ∧ codec.decode .toml document = .ok layer) ∧
        layer.IsValid := by
  rw [← Toml.read_eq_ok_iff, ← check_eq_ok_iff]
  unfold ofToml
  rw [Outcome.bind_eq_ok_iff]
  constructor
  · rintro ⟨read, hread, hrest⟩
    obtain ⟨hcheck, hpure⟩ := Outcome.check_bind_eq_ok_iff.mp hrest
    obtain rfl := Except.ok.inj hpure
    exact ⟨Outcome.mapError_eq_ok_iff.mp hread, Outcome.mapError_eq_ok_iff.mp hcheck⟩
  · rintro ⟨hread, hcheck⟩
    exact ⟨layer, Outcome.mapError_eq_ok_iff.mpr hread,
      Outcome.check_bind_eq_ok_iff.mpr ⟨Outcome.mapError_eq_ok_iff.mpr hcheck, rfl⟩⟩

/-- A part of a valid layer is valid. -/
theorem IsValid.of_part {layer part : Layer} (h : layer.IsValid)
    (hpart : ∀ setting ≠ .aliases, part.get? setting = layer.get? setting ∨
      part.get? setting = none) : part.IsValid := by
  have hall : ∀ {said whole : Option (List String)} {P : String → Prop},
      said = whole ∨ said = none → (∀ word ∈ whole.getD [], P word) →
        ∀ word ∈ said.getD [], P word := by
    rintro said whole P (rfl | rfl) hwhole
    · exact hwhole
    · exact List.forall_mem_nil P
  have hne : ∀ {α : Type} {said whole : Option α} {value : α},
      said = whole ∨ said = none → whole ≠ some value → said ≠ some value := by
    rintro α said whole value (rfl | rfl) hwhole
    · exact hwhole
    · exact (Option.some_ne_none value).symm
  exact {
    excludePatterns := hall (hpart .excludePatterns (by decide)) h.excludePatterns
    dynamicPatterns := hall (hpart .dynamicPatterns (by decide)) h.dynamicPatterns
    extensions := hall (hpart .extensions (by decide)) h.extensions
    maxNodes := hne (hpart .maxNodes (by decide)) h.maxNodes
    threads := hne (hpart .threads (by decide)) h.threads
    outputFile := hne (hpart .outputFile (by decide)) h.outputFile }

/-- What a layer says of a setting has a spelling. -/
theorem InRange.exists_spells {layer : Layer} (hrange : layer.InRange) {setting : Setting}
    (hne : setting ≠ .aliases) {said : setting.Said} (h : layer.get? setting = some said) :
    ∃ value : String, Toml.Spells (setting.document said) value.toList := by
  have hcs : ∃ cs, Toml.Spells (setting.document said) cs := by
    cases setting with
    | convention | outputFormat | outputFile => exact (Toml.exists_spellsText _).imp fun _ => .text
    | extensions | indexFiles | sourceRoots | externalModules | dynamicPatterns | excludePatterns =>
      exact (Toml.exists_spellsTexts said).elim fun _ hcs => ⟨_, .texts hcs⟩
    | aliases => exact absurd rfl hne
    | maxNodes =>
      exact (Toml.exists_spellsCount said).imp fun _ hcs => .count hcs (hrange.maxNodes said h)
    | threads =>
      exact (Toml.exists_spellsCount said).imp fun _ hcs => .count hcs (hrange.threads said h)
    | parallel | quiet | verbose | useColors | showProgress =>
      cases said with
      | false => exact ⟨_, .falseWord⟩
      | true => exact ⟨_, .trueWord⟩
  obtain ⟨cs, hcs⟩ := hcs
  exact ⟨String.ofList cs, by rwa [String.toList_ofList]⟩

end Layer

namespace Template

open Setting (textMembers)
open Toml (Spells SpellsKey SpellsText)

namespace Edit

variable {path : String} {edit : Edit} {layer read : Layer}

/-- The file starts with a comment. -/
theorem head?_file (edit : Edit) : edit.file.toList.head? ≠ some Toml.byteOrderMark := by
  have hfirst : (comment "depscope configuration").toList.head? = some '#' := by decide
  have hne : (comment "depscope configuration").toList ≠ [] := by decide
  rw [file_eq, opening, List.map_cons, List.cons_append, toList_unlines_cons,
    List.head?_append_of_ne_nil _ hne, hfirst]
  decide

/-- A value of a setting that is written is spelled. -/
theorem Writes.spells (hwrites : edit.Writes layer) {setting : Setting}
    (hmem : setting ∈ settingsAbove ++ settingsBelow) {said : setting.Said}
    (h : layer.get? setting = some said) :
    ∃ value : String, Spells (setting.document said) value.toList := by
  have hvalue := hwrites.values setting hmem
  rw [h] at hvalue
  generalize edit.value? setting = value at hvalue
  cases hvalue with
  | some hspells => exact ⟨_, hspells⟩

theorem Writes.inRange (hwrites : edit.Writes layer) : layer.InRange := by
  have hmem : .maxNodes ∈ settingsAbove ++ settingsBelow ∧
      .threads ∈ settingsAbove ++ settingsBelow := by
    rw [settingsAbove_eq, settingsBelow_eq]
    decide
  constructor
  · intro n hn
    obtain ⟨value, hspells⟩ := hwrites.spells hmem.1 hn
    exact hspells.le_maxCount
  · intro n hn
    obtain ⟨value, hspells⟩ := hwrites.spells hmem.2 hn
    exact hspells.le_maxCount

/-- **What can be written into the file** is every layer of its settings whose counts fit into 64
bits. -/
theorem exists_writes_iff :
    (∃ edit : Edit, edit.Writes layer) ↔
      layer.InRange ∧ ∀ setting ∉ settingsAbove ++ settingsBelow, setting ≠ .aliases →
        layer.get? setting = none := by
  constructor
  · rintro ⟨edit, hwrites⟩
    exact ⟨hwrites.inRange, hwrites.others⟩
  · rintro ⟨hrange, hothers⟩
    have hvalue : ∀ setting, ∃ value : Option String, setting ≠ .aliases →
        Option.Rel (fun value said => Spells (setting.document said) value.toList) value
          (layer.get? setting) := by
      intro setting
      cases hsaid : layer.get? setting with
      | none => exact ⟨none, fun _ => .none⟩
      | some said =>
        by_cases hne : setting = .aliases
        · exact ⟨none, absurd hne⟩
        · obtain ⟨value, hspells⟩ := hrange.exists_spells hne hsaid
          exact ⟨some value, fun _ => .some hspells⟩
    have hline : ∀ entry : String × String, ∃ line : String × String,
        SpellsKey entry.1 line.1.toList ∧ SpellsText entry.2 line.2.toList := by
      intro entry
      obtain ⟨key, hkey⟩ := Toml.exists_spellsKey entry.1
      obtain ⟨value, hspells⟩ := Toml.exists_spellsText entry.2
      refine ⟨(String.ofList key, String.ofList value), ?_⟩
      rw [String.toList_ofList, String.toList_ofList]
      exact ⟨hkey, hspells⟩
    -- The spellings do not depend on each other, so they can be chosen line by line.
    choose value? hvalue using hvalue
    choose line hline using hline
    refine ⟨⟨value?, layer.aliases.map fun aliases => aliases.entries.map line⟩, ?_, ?_, hothers⟩
    · exact fun setting hs => hvalue setting (ne_of_mem_of_not_mem hs aliases_not_mem_settings)
    · cases layer.aliases with
      | none => exact .none
      | some aliases =>
        refine .some ⟨aliases.entries, ?_, aliases.nodup_keys, Dictionary.ofEntries_entries aliases⟩
        exact List.forall₂_map_left_iff.mpr (List.forall₂_same.mpr fun entry _ => hline entry)

/-- A file without aliases gives the layer that is written. -/
theorem Writes.ofToml_of_none (hwrites : edit.Writes layer) (hvalid : layer.IsValid)
    (hnone : layer.aliases = none) : Layer.ofToml path edit.file = .ok layer := by
  have hedit : edit.aliases? = none := by
    have haliases := hwrites.aliases
    rw [hnone] at haliases
    generalize edit.aliases? = written at haliases ⊢
    cases haliases
    rfl
  have hparse := Toml.parse?_of_spellsFile (hwrites.spellsFile_of_none hedit) edit.head?_file
    (Layer.nodup_members nodup_settings)
  refine Layer.ofToml_eq_ok_iff.mpr ⟨⟨_, hparse, ?_⟩, hvalid⟩
  refine Layer.decode_members hwrites.inRange nodup_settings fun setting hs => ?_
  by_cases ha : setting = .aliases
  · subst ha
    exact hnone
  · exact hwrites.others setting hs ha

/-- The keys below the header of the aliases are distinct if no setting there has the key of an
alias. -/
theorem nodup_aliases_iff {entries : List (String × String)}
    (hdistinct : (entries.map (·.1)).Nodup) :
    ((textMembers entries ++ layer.members settingsBelow).map (·.1)).Nodup ↔
      ∀ member ∈ layer.members settingsBelow, member.1 ∉ (Dictionary.ofEntries entries).keys := by
  have hperm := (Dictionary.entries_ofEntries_perm hdistinct).map (·.1)
  have hbelow : ((layer.members settingsBelow).map (·.1)).Nodup :=
    Layer.nodup_members (List.nodup_append.mp nodup_settings).2.1
  rw [List.map_append, Setting.map_fst_textMembers, List.nodup_append', and_iff_right hdistinct,
    and_iff_right hbelow, List.disjoint_right, List.forall_mem_map]
  exact forall₂_congr fun member _ => not_congr hperm.mem_iff.symm

/-- **A file with aliases** gives the settings above them as they are, and adds those below them to
the aliases. It gives no layer unless all of the latter are texts, under keys that no alias has. -/
theorem Writes.ofToml_eq_ok_iff_of_some (hwrites : edit.Writes layer) (hvalid : layer.IsValid)
    {aliases : Dictionary String} (hsome : layer.aliases = some aliases) :
    Layer.ofToml path edit.file = .ok read ↔
      ∃ texts, layer.members settingsBelow = textMembers texts ∧
        (∀ entry ∈ texts, entry.1 ∉ aliases.keys) ∧
        read.aliases = some (.ofEntries (aliases.entries ++ texts)) ∧
        ∀ setting ≠ .aliases,
          read.get? setting = if setting ∈ settingsAbove then layer.get? setting else none := by
  have hedit := hwrites.aliases
  rw [hsome] at hedit
  generalize hwritten : edit.aliases? = written at hedit
  cases hedit with
  | some hentries =>
    obtain ⟨entries, hspells, hdistinct, rfl⟩ := hentries
    have habove := (List.nodup_append.mp nodup_settings).1
    have hnot : .aliases ∉ settingsAbove :=
      fun h => aliases_not_mem_settings (List.mem_append_left _ h)
    have hparse := Toml.parse?_of_spellsFile_header (hwrites.spellsFile_of_some hwritten hspells)
      edit.head?_file (Layer.nodup_members habove) (Layer.key_not_mem_members hnot)
    have hall : ∀ texts : List (String × String), (∀ member ∈ textMembers texts,
        member.1 ∉ (Dictionary.ofEntries entries).keys) ↔
          ∀ entry ∈ texts, entry.1 ∉ (Dictionary.ofEntries entries).keys :=
      fun texts => List.forall_mem_map
    -- The keys below the header decide whether there is a document, the values what it says.
    rw [Layer.ofToml_eq_ok_iff, hparse]
    constructor
    · rintro ⟨⟨document, hdocument, hdecode⟩, -⟩
      obtain ⟨hnodup, hdocument⟩ := Option.ite_none_right_eq_some.mp hdocument
      obtain rfl := Option.some.inj hdocument
      obtain ⟨haliases, hothers⟩ :=
        (Layer.decode_members_aliases_eq_ok_iff hwrites.inRange habove hnot).mp hdecode
      obtain ⟨texts, htexts, hread⟩ := (Layer.decode_aliases_eq_ok_iff hnodup).mp haliases
      have hnew := (nodup_aliases_iff hdistinct).mp hnodup
      rw [htexts, hall] at hnew
      rw [← Dictionary.ofEntries_entries_append] at hread
      exact ⟨texts, htexts, hnew, hread, hothers⟩
    · rintro ⟨texts, htexts, hnew, hread, hothers⟩
      rw [Dictionary.ofEntries_entries_append] at hread
      rw [← hall, ← htexts] at hnew
      have hnodup := (nodup_aliases_iff hdistinct).mpr hnew
      refine ⟨⟨_, if_pos hnodup, ?_⟩, hvalid.of_part fun setting hne => ?_⟩
      · exact (Layer.decode_members_aliases_eq_ok_iff hwrites.inRange habove hnot).mpr
          ⟨(Layer.decode_aliases_eq_ok_iff hnodup).mpr ⟨texts, htexts, hread⟩, hothers⟩
      · rw [hothers setting hne]
        split
        · exact .inl rfl
        · exact .inr rfl

/-- A file gives the layer that is written if it has no aliases, or nothing is set below them. -/
theorem Writes.ofToml_eq_ok_iff (hwrites : edit.Writes layer) (hvalid : layer.IsValid) :
    Layer.ofToml path edit.file = .ok layer ↔
      layer.aliases = none ∨ ∀ setting ∈ settingsBelow, layer.get? setting = none := by
  cases haliases : layer.aliases with
  | none => exact iff_of_true (hwrites.ofToml_of_none hvalid haliases) (.inl rfl)
  | some aliases =>
    rw [hwrites.ofToml_eq_ok_iff_of_some hvalid haliases,
      or_iff_right (Option.some_ne_none aliases)]
    have hbelow : ∀ setting ∈ settingsBelow, setting ≠ .aliases ∧ setting ∉ settingsAbove :=
      fun setting hs =>
        ⟨ne_of_mem_of_not_mem (List.mem_append_right _ hs) aliases_not_mem_settings,
          fun ha => (List.nodup_append'.mp nodup_settings).2.2 ha hs⟩
    constructor
    · rintro ⟨-, -, -, -, hothers⟩ setting hs
      rw [hothers setting (hbelow setting hs).1, if_neg (hbelow setting hs).2]
    · intro hnone
      -- Nothing joins the aliases, and of the settings in neither place nothing is said at all.
      refine ⟨[], List.filterMap_eq_nil_iff.mpr fun setting hs => ?_, List.forall_mem_nil _, ?_, ?_⟩
      · rw [hnone setting hs]
        rfl
      · rw [List.append_nil, Dictionary.ofEntries_entries, haliases]
      · intro setting hne
        split
        · rfl
        · next ha =>
          by_cases hb : setting ∈ settingsBelow
          · exact hnone setting hb
          · exact hwrites.others setting (List.not_mem_append ha hb) hne

/-- **When a file says what is written into it.** Every valid layer of the file's settings can be
written into it, if its counts fit into 64 bits. A file without aliases always says what is written,
and one with aliases does if no setting below them is set. In general a file with aliases says the
settings above them, and takes those below them for more aliases: it is refused unless all of these
are texts, under keys that no alias has. -/
theorem ofToml_file (hcheck : layer.check = .ok ()) :
    ((∃ edit : Edit, edit.Writes layer) ↔
      layer.InRange ∧ ∀ setting ∉ settingsAbove ++ settingsBelow, setting ≠ .aliases →
        layer.get? setting = none) ∧
    ∀ edit : Edit, edit.Writes layer →
      (Layer.ofToml path edit.file = .ok layer ↔
        layer.aliases = none ∨ ∀ setting ∈ settingsBelow, layer.get? setting = none) ∧
      ∀ aliases, layer.aliases = some aliases → ∀ read,
        (Layer.ofToml path edit.file = .ok read ↔
          ∃ texts, layer.members settingsBelow = textMembers texts ∧
            (∀ entry ∈ texts, entry.1 ∉ aliases.keys) ∧
            read.aliases = some (.ofEntries (aliases.entries ++ texts)) ∧
            ∀ setting ≠ .aliases,
              read.get? setting =
                if setting ∈ settingsAbove then layer.get? setting else none) := by
  have hvalid := layer.check_eq_ok_iff.mp hcheck
  refine ⟨exists_writes_iff, fun edit hwrites => ⟨hwrites.ofToml_eq_ok_iff hvalid, ?_⟩⟩
  exact fun aliases hsome read => hwrites.ofToml_eq_ok_iff_of_some hvalid hsome

/-- A limit and an output file, each below an alias. -/
theorem ofToml_file_below_alias :
    let written := some [("'@app/'", "'src/app/'")]
    let limit : Edit := ⟨fun | .maxNodes => some "50000" | _ => none, written⟩
    let output : Edit := ⟨fun | .outputFile => some "'out.json'" | _ => none, written⟩
    let limited : Layer :=
      { aliases := some (.ofEntries [("@app/", "src/app/")]), maxNodes := some 50000 }
    let sent : Layer :=
      { aliases := some (.ofEntries [("@app/", "src/app/")]), outputFile := some "out.json" }
    let kept : Layer :=
      { aliases := some (.ofEntries [("@app/", "src/app/"), ("output_file", "out.json")]) }
    limit.Writes limited ∧ limited.check = .ok () ∧
      (∀ read, Layer.ofToml "a.toml" limit.file ≠ .ok read) ∧
      output.Writes sent ∧ sent.check = .ok () ∧ Layer.ofToml "a.toml" output.file = .ok kept := by
  intro written limit output limited sent kept
  have haliases : Option.Rel SpellsAliases written limited.aliases := by
    have hkey : Toml.SpellsQuoted "@app/" "'@app/'".toList :=
      .literal (List.all_eq_true.mp (by rw [String.toList_ofList]; decide))
    have hvalue : Toml.SpellsQuoted "src/app/" "'src/app/'".toList :=
      .literal (List.all_eq_true.mp (by rw [String.toList_ofList]; decide))
    exact .some ⟨[("@app/", "src/app/")], .cons ⟨.quoted hkey, .quoted hvalue⟩ .nil, by decide, rfl⟩
  have hothers : ∀ setting ∉ settingsAbove ++ settingsBelow, setting ≠ .aliases →
      limited.get? setting = none ∧ sent.get? setting = none := by
    rw [settingsAbove_eq, settingsBelow_eq]
    intro setting hs hne
    cases setting with
    | aliases => exact absurd rfl hne
    | quiet | verbose => exact ⟨rfl, rfl⟩
    | _ => exact absurd (by decide) hs
  have hlimit : limit.Writes limited := by
    refine ⟨fun setting hs => ?_, haliases, fun setting hs hne => (hothers setting hs hne).1⟩
    cases setting with
    | maxNodes =>
      have hcount : Toml.SpellsCount 50000 "50000".toList :=
        .decimal List.mem_cons_self (Toml.grouped_self (List.cons_ne_nil '5' ['0', '0', '0', '0']))
          (List.all_eq_true.mp rfl) (by decide)
      exact .some (.count hcount (by decide))
    | aliases => exact absurd hs aliases_not_mem_settings
    | _ => exact .none
  have houtput : output.Writes sent := by
    refine ⟨fun setting hs => ?_, haliases, fun setting hs hne => (hothers setting hs hne).2⟩
    cases setting with
    | outputFile =>
      have hname : Toml.SpellsQuoted "out.json" "'out.json'".toList :=
        .literal (List.all_eq_true.mp (by rw [String.toList_ofList]; decide))
      exact .some (.text (.quoted hname))
    | aliases => exact absurd hs aliases_not_mem_settings
    | _ => exact .none
  have hcheck : limited.check = .ok () := by decide
  have hcheck' : sent.check = .ok () := by decide
  refine ⟨hlimit, hcheck, fun read hread => ?_, houtput, hcheck', ?_⟩
  · obtain ⟨texts, hmembers, -⟩ := (((ofToml_file hcheck).2 limit hlimit).2 _ rfl read).mp hread
    rw [settingsBelow_eq] at hmembers
    cases texts with
    | nil => cases hmembers
    | cons entry texts => cases (Prod.mk.inj (List.cons.inj hmembers).1).2
  · refine (((ofToml_file hcheck').2 output houtput).2 _ rfl kept).mpr
      ⟨[("output_file", "out.json")], by rw [settingsBelow_eq]; rfl, by decide,
        congrArg some (Dictionary.ofEntries_entries_append [_] [_]).symm, fun setting hne => ?_⟩
    rw [settingsAbove_eq]
    cases setting with
    | aliases => exact absurd rfl hne
    | _ => rfl

end Edit

end Template

end ImportAtlas
