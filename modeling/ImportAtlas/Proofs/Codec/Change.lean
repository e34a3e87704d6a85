import ImportAtlas.Proofs.Dictionary
import ImportAtlas.Proofs.Json.Writing
import ImportAtlas.Proofs.Outcome

/-!
# Changes that a reader does not see

A document may be changed in ways that leave the value read from it alone: entries and members may
stand in another order, a record may have members of other names, and a member that holds what it would
be taken to hold may be missing. Which changes a document allows is said by its shape. A codec that
tolerates the changes of a shape reads the same value from a changed document.

## Main definitions

* `Codec.Shape`: the parts of a document, and the members that may be missing
* `Codec.Change`: one change, anywhere in a document
* `Codec.ReadsBack`: a value is read back from the document that it is written as
* `Codec.Tolerates`: a codec reads the same value after a change

## Main results

* `readsBack_list`, `readsBack_dictionary`, `readsBack_optional`, `readsBack_choice`: composed values
* `tolerates_list`, `tolerates_dictionary`, `tolerates_optional`: composed codecs
-/

namespace ImportAtlas

namespace Codec

/-- What a record says of one of its members. -/
structure MemberShape (σ : Type) where
  name : String
  /-- The shape of the value. -/
  shape : σ
  /-- The value for which the member may be missing. -/
  default : Option Json := none

/-- The parts of a document. -/
inductive Shape where
  /-- A value without parts. -/
  | leaf
  | list (item : Shape)
  | dictionary (value : Shape)
  | record (members : List (MemberShape Shape))

/-- One change, anywhere in a document of a shape. -/
inductive Change : Shape → Document → Document → Prop
  | item {shape : Shape} {d d' : Document} (before after : List Document)
      (h : Change shape d d') :
      Change (.list shape) (.ofItems (before ++ d :: after)) (.ofItems (before ++ d' :: after))
  | value {shape : Shape} {d d' : Document} (name : String)
      (before after : List (String × Document)) (h : Change shape d d') :
      Change (.dictionary shape) (.ofMembers (before ++ (name, d) :: after))
        (.ofMembers (before ++ (name, d') :: after))
  /-- The entries of a dictionary, whose names are distinct, in another order. -/
  | entries {shape : Shape} {entries entries' : List (String × Document)}
      (hdistinct : (entries.map (·.1)).Nodup) (h : entries.Perm entries') :
      Change (.dictionary shape) (.ofMembers entries) (.ofMembers entries')
  | member {members : List (MemberShape Shape)} {member : MemberShape Shape} {d d' : Document}
      (before after : List (String × Document)) (hmember : member ∈ members)
      (h : Change member.shape d d') :
      Change (.record members) (.ofMembers (before ++ (member.name, d) :: after))
        (.ofMembers (before ++ (member.name, d') :: after))
  /-- The members of a record in another order. -/
  | members {members : List (MemberShape Shape)} {given given' : List (String × Document)}
      (h : given.Perm given') : Change (.record members) (.ofMembers given) (.ofMembers given')
  /-- One more member, of a name that the record does not know. -/
  | unknown {members : List (MemberShape Shape)} {name : String} {d : Document}
      (before after : List (String × Document)) (hname : ∀ member ∈ members, member.name ≠ name)
      (hskip : d.skip = none) :
      Change (.record members) (.ofMembers (before ++ after))
        (.ofMembers (before ++ (name, d) :: after))
  /-- A member less, which has the value for which it may be missing. -/
  | missing {members : List (MemberShape Shape)} {member : MemberShape Shape} {default : Json}
      (before after : List (String × Document)) (hmember : member ∈ members)
      (hdefault : member.default = some default) :
      Change (.record members) (.ofMembers (before ++ (member.name, default.document) :: after))
        (.ofMembers (before ++ after))

variable {α : Type}

/-- A value is read back from the document that it is written as. -/
def ReadsBack (codec : Codec α) (value : α) : Prop :=
  codec.decode .json (codec.encode value).document = .ok value

/-- A codec reads the same value after a change. -/
def Tolerates (codec : Codec α) (shape : Shape) : Prop :=
  ∀ d d' value, Change shape d d' → codec.decode .json d = .ok value →
    codec.decode .json d' = .ok value

/-! ## Simple values -/

theorem tolerates_leaf (codec : Codec α) : codec.Tolerates .leaf := by
  intro d d' value h
  cases h

theorem readsBack_text (s : String) : text.ReadsBack s := rfl

theorem readsBack_path (s : String) : path.ReadsBack s := rfl

theorem readsBack_boolean (value : Bool) : boolean.ReadsBack value := rfl

theorem readNatural_natural {bound n : Nat} (wanted : String) (hbound : bound ≤ Text.maxCount)
    (hn : n ≤ bound) : readNatural bound wanted (Json.natural n).document = .ok n := by
  have hvalue := Json.value_ofInt_natural (Nat.le_trans hn hbound)
  have hrange : 0 ≤ (n : Int) ∧ (n : Int) ≤ bound := ⟨Int.natCast_nonneg n, Int.ofNat_le.mpr hn⟩
  simp only [Json.natural, Json.document, hvalue, readNatural, if_pos hrange, Int.toNat_natCast]

theorem readsBack_count {n : Nat} (h : n ≤ Text.maxCount) : count.ReadsBack n :=
  readNatural_natural "usize" (Nat.le_refl _) h

theorem readsBack_line {n : Nat} (h : n ≤ Text.maxLine) : line.ReadsBack n :=
  readNatural_natural "u32" (by decide) h

theorem readsBack_instant {value : Instant} (h : Instant.read value.format = .ok value) :
    instant.ReadsBack value := by
  unfold ReadsBack instant
  simp only [Json.document, Document.ofText, Document.asText, bind, Except.bind, h]
  rfl

theorem readsBack_choice {choices : List α} {name : α → String} {value : α}
    (h : choices.find? (fun choice => name choice == name value) = some value) :
    (choice choices name).ReadsBack value := by
  change findChoice choices name (name value) = _
  rw [findChoice, h]

/-! ## Lists -/

theorem readItems_eq_ok_iff {read : Document → Except ReadError α} {items : List Document}
    {values : List α} :
    readItems read none items = .ok values ↔
      List.Forall₂ (fun item value => read item = .ok value) items values := by
  induction items generalizing values with
  | nil => simp [readItems, eq_comm]
  | cons item items ih =>
    simp only [readItems, Outcome.bind_eq_ok_iff, ih, List.forall₂_cons_left_iff]
    constructor
    · rintro ⟨value, hvalue, values, hvalues, hok⟩
      exact ⟨value, values, hvalue, hvalues, (Except.ok.inj hok).symm⟩
    · rintro ⟨value, values, hvalue, hvalues, rfl⟩
      exact ⟨value, hvalue, values, hvalues, rfl⟩

/-- An item in the middle is exchanged for another one of the same value. -/
theorem forall₂_exchange {β γ : Type} {r : β → γ → Prop} {b b' : β} {before after : List β}
    {cs : List γ} (hexchange : ∀ c, r b c → r b' c)
    (h : List.Forall₂ r (before ++ b :: after) cs) :
    List.Forall₂ r (before ++ b' :: after) cs := by
  induction before generalizing cs with
  | nil =>
    obtain ⟨c, cs, hc, hcs, rfl⟩ := List.forall₂_cons_left_iff.mp h
    exact .cons (hexchange c hc) hcs
  | cons first before ih =>
    obtain ⟨c, cs, hc, hcs, rfl⟩ := List.forall₂_cons_left_iff.mp h
    exact .cons hc (ih hcs)

theorem readsBack_list {codec : Codec α} {values : List α}
    (h : ∀ value ∈ values, codec.ReadsBack value) : codec.list.ReadsBack values := by
  refine readItems_eq_ok_iff.mpr ?_
  rw [Json.documents_eq_map, List.map_map, List.forall₂_map_left_iff, List.forall₂_same]
  exact h

theorem readsBack_texts (values : List String) : text.list.ReadsBack values :=
  readsBack_list fun value _ => readsBack_text value

theorem tolerates_list {codec : Codec α} {shape : Shape} (h : codec.Tolerates shape) :
    codec.list.Tolerates (.list shape) := by
  rintro _ _ values (⟨before, after, hchange⟩ | _) hread
  exact readItems_eq_ok_iff.mpr (forall₂_exchange (fun value => h _ _ value hchange)
    (readItems_eq_ok_iff.mp hread))

/-! ## Dictionaries -/

theorem readEntries_eq_ok_iff {read : Document → Except ReadError α}
    {members : List (String × Document)} {entries : List (String × α)} :
    readEntries read none (members.map fun member => (.ofText member.1, member.2)) =
        .ok entries ↔
      List.Forall₂ (fun member entry => member.1 = entry.1 ∧ read member.2 = .ok entry.2)
        members entries := by
  induction members generalizing entries with
  | nil => simp [readEntries, eq_comm]
  | cons member members ih =>
    have hname : (Document.ofText member.1).asName = .ok member.1 := rfl
    simp only [List.map_cons, readEntries, hname, Outcome.bind_eq_ok_iff, ih,
      List.forall₂_cons_left_iff]
    constructor
    · rintro ⟨name, hname, value, hvalue, entries, hentries, hok⟩
      exact ⟨(name, value), entries, ⟨Except.ok.inj hname, hvalue⟩, hentries,
        (Except.ok.inj hok).symm⟩
    · rintro ⟨entry, entries, ⟨hname, hvalue⟩, hentries, rfl⟩
      exact ⟨entry.1, congrArg _ hname, entry.2, hvalue, entries, hentries, rfl⟩

theorem decode_dictionary_eq_ok_iff {codec : Codec α} {members : List (String × Document)}
    {d : Dictionary α} :
    codec.dictionary.decode .json (.ofMembers members) = .ok d ↔
      ∃ entries, List.Forall₂
        (fun member entry => member.1 = entry.1 ∧ codec.decode .json member.2 = .ok entry.2)
        members entries ∧ Dictionary.ofEntries entries = d := by
  change Dictionary.ofEntries <$> readEntries _ none _ = _ ↔ _
  simp only [Outcome.map_eq_ok_iff, readEntries_eq_ok_iff]

theorem readsBack_dictionary {codec : Codec α} {d : Dictionary α}
    (h : ∀ entry ∈ d.entries, codec.ReadsBack entry.2) : codec.dictionary.ReadsBack d := by
  refine decode_dictionary_eq_ok_iff.mpr ⟨d.entries, ?_, d.ofEntries_entries⟩
  rw [Json.memberDocuments_eq_map, List.map_map, List.forall₂_map_left_iff, List.forall₂_same]
  exact fun entry he => ⟨rfl, h entry he⟩

theorem map_fst_eq_of_forall₂ {β γ : Type} {r : String × β → String × γ → Prop}
    {members : List (String × β)} {entries : List (String × γ)}
    (hname : ∀ member entry, r member entry → member.1 = entry.1)
    (h : List.Forall₂ r members entries) : members.map (·.1) = entries.map (·.1) := by
  induction h with
  | nil => rfl
  | cons hentry _ ih => rw [List.map_cons, List.map_cons, hname _ _ hentry, ih]

theorem tolerates_dictionary {codec : Codec α} {shape : Shape} (h : codec.Tolerates shape) :
    codec.dictionary.Tolerates (.dictionary shape) := by
  intro _ _ d hchange hread
  cases hchange with
  | value name before after hchange =>
    obtain ⟨entries, hentries, hd⟩ := decode_dictionary_eq_ok_iff.mp hread
    refine decode_dictionary_eq_ok_iff.mpr ⟨entries, forall₂_exchange ?_ hentries, hd⟩
    exact fun entry he => ⟨he.1, h _ _ _ hchange he.2⟩
  | entries hdistinct hperm =>
    obtain ⟨entries, hentries, rfl⟩ := decode_dictionary_eq_ok_iff.mp hread
    obtain ⟨entries', hentries', hperm'⟩ := List.perm_comp_forall₂ hperm.symm hentries
    refine decode_dictionary_eq_ok_iff.mpr ⟨entries', hentries', ?_⟩
    rw [map_fst_eq_of_forall₂ (fun _ _ he => he.1) hentries] at hdistinct
    exact (Dictionary.ofEntries_eq_of_perm hdistinct hperm'.symm).symm

/-! ## Values that may be null -/

/-- Only lists and objects change. -/
theorem Change.ne_null {shape : Shape} {d d' : Document} (h : Change shape d d')
    (fault : Option ReadError) : d ≠ .null fault ∧ d' ≠ .null fault := by
  cases h <;> exact ⟨Document.noConfusion, Document.noConfusion⟩

theorem decode_optional {codec : Codec α} {dialect : Dialect} {d : Document}
    (h : ∀ fault, d ≠ .null fault) :
    codec.optional.decode dialect d = some <$> codec.decode dialect d := by
  cases d with
  | null fault => exact absurd rfl (h fault)
  | _ => rfl

theorem document_ne_null {json : Json} (h : json ≠ .null) (fault : Option ReadError) :
    json.document ≠ .null fault := by
  cases json with
  | null => exact absurd rfl h
  | _ => exact Document.noConfusion

theorem readsBack_optional {codec : Codec α} {value : Option α}
    (hnull : ∀ value, codec.encode value ≠ .null)
    (h : ∀ some ∈ value, codec.ReadsBack some) : codec.optional.ReadsBack value := by
  cases value with
  | none => rfl
  | some value =>
    refine (decode_optional (document_ne_null (hnull value))).trans ?_
    rw [h value rfl]
    rfl

theorem readsBack_optional_text (value : Option String) : text.optional.ReadsBack value :=
  readsBack_optional (fun _ => Json.noConfusion) fun value _ => readsBack_text value

theorem readsBack_optional_count {value : Option Nat} (h : ∀ n ∈ value, n ≤ Text.maxCount) :
    count.optional.ReadsBack value :=
  readsBack_optional (fun _ => Json.noConfusion) fun n hn => readsBack_count (h n hn)

theorem tolerates_optional {codec : Codec α} {shape : Shape} (h : codec.Tolerates shape) :
    codec.optional.Tolerates shape := by
  intro d d' value hchange hread
  rw [decode_optional fun fault => (hchange.ne_null fault).1, Outcome.map_eq_ok_iff] at hread
  obtain ⟨some, hsome, rfl⟩ := hread
  rw [decode_optional fun fault => (hchange.ne_null fault).2, h _ _ _ hchange hsome]
  rfl

end Codec

end ImportAtlas
