import ImportAtlas.Proofs.Settings.Document
import ImportAtlas.Proofs.Toml.Tables
import ImportAtlas.Settings.Template

/-!
# Uncommenting lines of the settings file

Lines of the settings file are uncommented in place, with other values where one likes. The file is
then spelled like any other: its lines above the header of the aliases are entries of the file
itself, and those below are entries of the aliases, once that header is uncommented.

## Main definitions

* `settingsAbove`, `settingsBelow`: the settings whose lines stand above and below the header
* `Edit`, `Edit.file`: the lines to uncomment with what to write into them, and the file with them
* `Edit.Writes`: an edit writes what a layer says, in any spelling

## Main results

* `Edit.file_blank`: without an edit the file is as it is
* `Edit.Writes.spellsFile_of_none`, `Edit.Writes.spellsFile_of_some`: the entries of an edited file,
  without the header of the aliases and with it
-/

namespace ImportAtlas.Template

open Setting (textMembers)
open Toml (Spells SpellsFile SpellsKey SpellsText isPrintable)
open Toml.Table (plain)

/-! ## Lines of the file -/

/-- The key at the front of a line. -/
def keyOf (line : String) : String := String.ofList (line.toList.takeWhile Toml.isBare)

/-- The setting that a line sets. There is none for the header of the aliases and for the entry
below it. -/
def settingOf? (line : String) : Option Setting :=
  Setting.all.find? fun setting => setting.key == keyOf line

/-- The line of an entry. -/
def entryLine (key value : String) : String := key ++ " = " ++ value

/-- The header of the aliases. -/
def header : String := "[aliases]"

/-- The settings that some sections set, in the order of their lines. -/
def settingsOf (parts : List Section) : List Setting :=
  parts.flatMap fun part => part.lines.filterMap settingOf?

/-- The sections above the header of the aliases. -/
def above : List Section := sections.takeWhile (header ∉ ·.lines)

/-- The sections below the one of the aliases. -/
def below : List Section := (sections.dropWhile (header ∉ ·.lines)).drop 1

/-- The settings whose lines stand above the header of the aliases. -/
def settingsAbove : List Setting := settingsOf above

/-- The settings whose lines stand below the header of the aliases. -/
def settingsBelow : List Setting := settingsOf below

theorem settingsAbove_eq :
    settingsAbove = [.convention, .extensions, .indexFiles, .sourceRoots] := by decide

theorem settingsBelow_eq :
    settingsBelow = [.externalModules, .dynamicPatterns, .excludePatterns, .maxNodes,
      .outputFormat, .outputFile, .parallel, .threads, .useColors, .showProgress] := by decide

theorem nodup_settings : (settingsAbove ++ settingsBelow).Nodup := by
  rw [settingsAbove_eq, settingsBelow_eq]
  decide

theorem aliases_not_mem_settings : .aliases ∉ settingsAbove ++ settingsBelow := by
  rw [settingsAbove_eq, settingsBelow_eq]
  decide

/-! ## Edits -/

/-- What is written into the file. -/
structure Edit where
  /-- The value in the line of a setting, if that line is uncommented. -/
  value? : Setting → Option String
  /-- The keys and the values below the header of the aliases, if it is uncommented. -/
  aliases? : Option (List (String × String))

namespace Edit

/-- The lines that an edit makes of a line that sets something. A line that is not uncommented stays
a comment; the entry below the header of the aliases gives way to those of the edit. -/
def lines (edit : Edit) (line : String) : List String :=
  match settingOf? line with
  | some setting =>
    match edit.value? setting with
    | some value => [entryLine setting.key value]
    | none => [comment line]
  | none =>
    match edit.aliases? with
    | some entries =>
      if line = header then [header] else entries.map fun entry => entryLine entry.1 entry.2
    | none => [comment line]

/-- The lines of a section. -/
def sectionLines (edit : Edit) (part : Section) : List String :=
  "" :: (part.about.map comment ++ part.lines.flatMap edit.lines)

/-- The file with the lines of an edit uncommented in place. -/
def file (edit : Edit) : String :=
  unlines (opening.map comment ++ sections.flatMap edit.sectionLines)

end Edit

/-- Lines of keys and values spell aliases, one by one and in any order. -/
def SpellsAliases (written : List (String × String)) (aliases : Dictionary String) : Prop :=
  ∃ entries : List (String × String),
    List.Forall₂ (fun line entry => SpellsKey entry.1 line.1.toList ∧
      SpellsText entry.2 line.2.toList) written entries ∧
    (entries.map (·.1)).Nodup ∧ Dictionary.ofEntries entries = aliases

/-- An edit writes what a layer says: the value of each setting that the layer says something of,
and its aliases. -/
structure Edit.Writes (edit : Edit) (layer : Layer) : Prop where
  values : ∀ setting ∈ settingsAbove ++ settingsBelow,
    Option.Rel (fun value said => Spells (setting.document said) value.toList)
      (edit.value? setting) (layer.get? setting)
  aliases : Option.Rel SpellsAliases edit.aliases? layer.aliases
  others : ∀ setting ∉ settingsAbove ++ settingsBelow, setting ≠ .aliases →
    layer.get? setting = none

/-! ## The file without an edit -/

theorem Edit.lines_blank (line : String) :
    Edit.lines ⟨fun _ => none, none⟩ line = [comment line] := by
  unfold lines
  cases settingOf? line <;> rfl

/-- Without an edit the file is as it is. -/
theorem Edit.file_blank : Edit.file ⟨fun _ => none, none⟩ = text := by
  have hlines : Edit.lines ⟨fun _ => none, none⟩ = fun line => [comment line] :=
    funext lines_blank
  have hsection : Edit.sectionLines ⟨fun _ => none, none⟩ = Section.commented := by
    funext part
    rw [sectionLines, hlines, ← List.map_eq_flatMap, ← List.map_append]
    rfl
  rw [file, hsection, text]

/-! ## The spelling of the file -/

theorem toList_unlines_cons (line : String) (lines : List String) :
    (unlines (line :: lines)).toList = line.toList ++ '\n' :: (unlines lines).toList := by
  simp [unlines]

theorem toList_entryLine (key value : String) :
    (entryLine key value).toList = Toml.entryLine key.toList value.toList := by
  simp [entryLine, Toml.entryLine]

/-- Whether a line may stand in a comment. -/
def isCommentable (line : String) : Bool := line.toList.all isPrintable

theorem comment_comment {line : String} (h : isCommentable line = true) :
    Toml.Comment (comment line).toList := by
  unfold comment
  split
  · exact .text (List.forall_mem_nil _)
  · rw [String.toList_append]
    exact .text (List.forall_mem_cons.mpr ⟨rfl, List.all_eq_true.mp h⟩)

theorem commentable_opening : ∀ line ∈ opening, isCommentable line = true := by
  simp only [opening, List.forall_mem_cons, List.not_mem_nil, false_imp_iff, implies_true, and_true,
    isCommentable]
  and_intros <;> rw [String.toList_ofList] <;> decide

theorem commentable_sections :
    ∀ part ∈ sections, ∀ line ∈ part.about ++ part.lines, isCommentable line = true := by
  simp only [sections, List.forall_mem_cons, List.cons_append, List.nil_append, List.not_mem_nil,
    false_imp_iff, implies_true, and_true, isCommentable]
  and_intros <;> rw [String.toList_ofList] <;> decide

/-- The entry below the header of the aliases. -/
def sample : String := "\"@app/\" = \"src/app/\""

/-- The section of the aliases. -/
def aliasSection : Section :=
  ⟨["Import prefix rewrites used by the custom-resolver convention"], [header, sample]⟩

theorem sections_eq : sections = above ++ aliasSection :: below := rfl

theorem settingOf?_header : settingOf? header = none := by
  rw [settingOf?, keyOf, header, String.toList_ofList]
  decide

theorem settingOf?_sample : settingOf? sample = none := by
  rw [settingOf?, keyOf, sample, String.toList_ofList]
  decide

/-- Each line of the other sections sets something. -/
theorem exists_setting : ∀ part ∈ above ++ below, ∀ line ∈ part.lines,
    (settingOf? line).isSome = true := by
  have hparts : above ++ below = sections.take 4 ++ sections.drop 5 := rfl
  rw [hparts]
  simp only [sections, List.take_succ_cons, List.take_zero, List.drop_succ_cons, List.drop_zero,
    List.cons_append, List.nil_append, List.forall_mem_cons, List.not_mem_nil, false_imp_iff,
    implies_true, and_true, settingOf?, keyOf]
  and_intros <;> rw [String.toList_ofList] <;> decide

theorem spellsKey_key (setting : Setting) : SpellsKey setting.key setting.key.toList := by
  cases setting <;> exact .bare (by decide) (List.all_eq_true.mp (by decide))

section

variable {entries : List Toml.Table.Entry} {tables : List Toml.Table.Section} {rest : List String}

theorem spellsFile_comments {notes : List String}
    (hnotes : ∀ note ∈ notes, isCommentable note = true)
    (h : SpellsFile entries tables (unlines rest).toList) :
    SpellsFile entries tables (unlines (notes.map comment ++ rest)).toList := by
  induction notes with
  | nil => exact h
  | cons note notes ih =>
    rw [List.map_cons, List.cons_append, toList_unlines_cons]
    rw [List.forall_mem_cons] at hnotes
    exact .comment (comment_comment hnotes.1) (ih hnotes.2)

variable {edit : Edit} {layer : Layer}

/-- The line of a setting is a comment or an entry. -/
theorem Edit.Writes.spellsFile_line (hwrites : edit.Writes layer) {line : String}
    (hline : isCommentable line = true) {setting : Setting}
    (hsetting : settingOf? line = some setting) (hmem : setting ∈ settingsAbove ++ settingsBelow)
    (h : SpellsFile entries tables (unlines rest).toList) :
    SpellsFile ((layer.members [setting]).map plain ++ entries) tables
      (unlines (edit.lines line ++ rest)).toList := by
  have hvalue := hwrites.values setting hmem
  unfold lines Layer.members
  rw [hsetting, List.filterMap_cons, List.filterMap_nil]
  dsimp only
  generalize edit.value? setting = value at hvalue
  generalize layer.get? setting = said at hvalue
  cases hvalue with
  | none =>
    rw [List.singleton_append, toList_unlines_cons]
    exact .comment (comment_comment hline) h
  | some hspells =>
    rw [List.singleton_append, toList_unlines_cons, toList_entryLine]
    exact .entry (spellsKey_key setting) hspells h

/-- Lines of settings give what the layer says of them. -/
theorem Edit.Writes.spellsFile_lines (hwrites : edit.Writes layer) {lines : List String}
    (hlines : ∀ line ∈ lines, isCommentable line = true ∧ (settingOf? line).isSome = true)
    (hmem : ∀ setting ∈ lines.filterMap settingOf?, setting ∈ settingsAbove ++ settingsBelow)
    (h : SpellsFile entries tables (unlines rest).toList) :
    SpellsFile ((layer.members (lines.filterMap settingOf?)).map plain ++ entries) tables
      (unlines (lines.flatMap edit.lines ++ rest)).toList := by
  induction lines with
  | nil => exact h
  | cons line lines ih =>
    obtain ⟨⟨hline, hsome⟩, hlines⟩ := List.forall_mem_cons.mp hlines
    obtain ⟨setting, hsetting⟩ := Option.isSome_iff_exists.mp hsome
    rw [List.filterMap_cons, hsetting, List.forall_mem_cons] at hmem
    rw [List.filterMap_cons, hsetting, List.flatMap_cons, List.append_assoc]
    dsimp only
    rw [← List.singleton_append, Layer.members_append, List.map_append, List.append_assoc]
    exact hwrites.spellsFile_line hline hsetting hmem.1 (ih hlines hmem.2)

theorem mem_sections {part : Section} (h : part ∈ above ++ below) : part ∈ sections := by
  rw [sections_eq, List.mem_append, List.mem_cons]
  exact (List.mem_append.mp h).imp_right .inr

theorem settingsOf_append (parts more : List Section) :
    settingsOf (parts ++ more) = settingsOf parts ++ settingsOf more :=
  List.flatMap_append

/-- A section starts with an empty line and with what it is about. -/
theorem spellsFile_section (edit : Edit) {part : Section} (hpart : part ∈ sections)
    (h : SpellsFile entries tables (unlines (part.lines.flatMap edit.lines ++ rest)).toList) :
    SpellsFile entries tables (unlines (edit.sectionLines part ++ rest)).toList := by
  have hcommentable := (List.forall_mem_append.mp (commentable_sections part hpart)).1
  rw [Edit.sectionLines, List.cons_append, toList_unlines_cons, List.append_assoc]
  exact .comment .none (spellsFile_comments hcommentable h)

/-- Sections of settings give what the layer says of them. -/
theorem Edit.Writes.spellsFile_sections (hwrites : edit.Writes layer) {parts : List Section}
    (hparts : ∀ part ∈ parts, part ∈ above ++ below)
    (h : SpellsFile entries tables (unlines rest).toList) :
    SpellsFile ((layer.members (settingsOf parts)).map plain ++ entries) tables
      (unlines (parts.flatMap edit.sectionLines ++ rest)).toList := by
  induction parts with
  | nil => exact h
  | cons part parts ih =>
    obtain ⟨hpart, hparts⟩ := List.forall_mem_cons.mp hparts
    have hlines : ∀ line ∈ part.lines,
        isCommentable line = true ∧ (settingOf? line).isSome = true := fun line hl =>
      ⟨commentable_sections part (mem_sections hpart) line (List.mem_append_right _ hl),
        exists_setting part hpart line hl⟩
    have hmem : ∀ setting ∈ part.lines.filterMap settingOf?,
        setting ∈ settingsAbove ++ settingsBelow := by
      intro setting hs
      rw [settingsAbove, settingsBelow, ← settingsOf_append]
      exact List.mem_flatMap.mpr ⟨part, hpart, hs⟩
    rw [settingsOf, List.flatMap_cons, Layer.members_append, List.map_append, List.append_assoc,
      List.flatMap_cons, List.append_assoc]
    exact spellsFile_section edit (mem_sections hpart)
      (hwrites.spellsFile_lines hlines hmem (ih hparts))

/-! ## The aliases -/

/-- Entries below the header of the aliases. -/
theorem spellsFile_aliases {written aliases : List (String × String)}
    (hspells : List.Forall₂ (fun line entry => SpellsKey entry.1 line.1.toList ∧
      SpellsText entry.2 line.2.toList) written aliases)
    (h : SpellsFile entries tables (unlines rest).toList) :
    SpellsFile ((textMembers aliases).map plain ++ entries) tables
      (unlines ((written.map fun entry => entryLine entry.1 entry.2) ++ rest)).toList := by
  induction hspells with
  | nil => exact h
  | cons hentry _ ih =>
    rw [List.map_cons, List.cons_append, toList_unlines_cons, toList_entryLine]
    exact .entry hentry.1 (.text hentry.2) ih

theorem Edit.file_eq (edit : Edit) :
    edit.file = unlines (opening.map comment ++ (above.flatMap edit.sectionLines ++
      (edit.sectionLines aliasSection ++ below.flatMap edit.sectionLines))) := by
  rw [file, sections_eq, List.flatMap_append, List.flatMap_cons]

theorem mem_sections_aliasSection : aliasSection ∈ sections := by
  rw [sections_eq]
  exact List.mem_append_right _ List.mem_cons_self

theorem Edit.Writes.spellsFile_below (hwrites : edit.Writes layer) :
    SpellsFile ((layer.members settingsBelow).map plain) []
      (unlines (below.flatMap edit.sectionLines)).toList := by
  have hempty : SpellsFile [] [] (unlines []).toList := .nil
  have hbelow := hwrites.spellsFile_sections (fun _ hp => List.mem_append_right above hp) hempty
  rwa [List.append_nil, List.append_nil] at hbelow

/-- The file starts with comments and with the sections above that of the aliases. -/
theorem Edit.Writes.spellsFile_file (hwrites : edit.Writes layer)
    (h : SpellsFile entries tables (unlines (aliasSection.lines.flatMap edit.lines ++
      below.flatMap edit.sectionLines)).toList) :
    SpellsFile ((layer.members settingsAbove).map plain ++ entries) tables edit.file.toList := by
  rw [file_eq]
  exact spellsFile_comments commentable_opening
    (hwrites.spellsFile_sections (fun _ hp => List.mem_append_left below hp)
      (spellsFile_section edit mem_sections_aliasSection h))

/-- Without a header all settings are entries of the file itself. -/
theorem Edit.Writes.spellsFile_of_none (hwrites : edit.Writes layer)
    (hnone : edit.aliases? = none) :
    SpellsFile ((layer.members (settingsAbove ++ settingsBelow)).map plain) []
      edit.file.toList := by
  have hlines : aliasSection.lines.flatMap edit.lines = aliasSection.lines.map comment := by
    simp only [aliasSection, List.flatMap_cons, List.flatMap_nil, lines, settingOf?_header,
      settingOf?_sample, hnone, List.map_cons, List.map_nil, List.append_nil, List.cons_append,
      List.nil_append]
  have hcommentable := commentable_sections aliasSection mem_sections_aliasSection
  rw [Layer.members_append, List.map_append]
  refine hwrites.spellsFile_file ?_
  rw [hlines]
  exact spellsFile_comments (List.forall_mem_append.mp hcommentable).2 hwrites.spellsFile_below

/-- Below a header the settings are entries of the aliases. -/
theorem Edit.Writes.spellsFile_of_some (hwrites : edit.Writes layer)
    {written aliases : List (String × String)} (hsome : edit.aliases? = some written)
    (hspells : List.Forall₂ (fun line entry => SpellsKey entry.1 line.1.toList ∧
      SpellsText entry.2 line.2.toList) written aliases) :
    SpellsFile ((layer.members settingsAbove).map plain)
      [⟨false, [], Setting.aliases.key,
        (textMembers aliases ++ layer.members settingsBelow).map plain⟩] edit.file.toList := by
  have hlines : aliasSection.lines.flatMap edit.lines =
      header :: written.map fun entry => entryLine entry.1 entry.2 := by
    have hsample : sample ≠ header := by decide
    simp only [aliasSection, List.flatMap_cons, List.flatMap_nil, lines, settingOf?_header,
      settingOf?_sample, hsome, if_true, if_neg hsample, List.append_nil, List.cons_append,
      List.nil_append]
  have hheader : header.toList = Toml.headerLine Setting.aliases.key.toList := rfl
  rw [← List.append_nil ((layer.members settingsAbove).map plain)]
  refine hwrites.spellsFile_file ?_
  rw [hlines, List.cons_append, toList_unlines_cons, hheader, List.map_append]
  exact .header (spellsKey_key .aliases) (spellsFile_aliases hspells hwrites.spellsFile_below)

end

end ImportAtlas.Template
