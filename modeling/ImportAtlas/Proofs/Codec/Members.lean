import ImportAtlas.Proofs.Codec.Record

/-!
# Records of distinct members

If the members of an object have distinct names, each field is read from the member of its name, or
is left out if there is none. That holds in either kind of document, as long as the fields read
their members alike in both.

## Main definitions

* `Codec.Agrees`: a codec reads a document alike in both kinds
* `RecordFields.Gives`: members that are looked up by name give the values of all fields

## Main results

* `decode_toml_record_eq_ok_iff`: a record is read from distinct members by look-ups
-/

namespace ImportAtlas.Codec

variable {α τ : Type}

/-! ## Both kinds of documents -/

/-- A document is read alike in both kinds of documents. -/
def Agrees (codec : Codec α) (document : Document) : Prop :=
  codec.decode .toml document = codec.decode .json document

theorem agrees_optional {codec : Codec α} {document : Document} (h : codec.Agrees document) :
    codec.optional.Agrees document := by
  unfold Agrees at h ⊢
  cases document with
  | null fault => cases fault <;> rfl
  | _ => exact congrArg (some <$> ·) h

theorem agrees_dictionary (document : Document) : text.dictionary.Agrees document := rfl

namespace RecordFields

/-- The fields of a name read a document alike in both kinds of documents. -/
def Agrees : {τ : Type} → RecordFields τ → String → Document → Prop
  | _, .nil, _, _ => True
  | _, .cons head tail, name, document =>
    (head.name = name → head.codec.Agrees document) ∧ tail.Agrees name document

theorem readMember_agrees {fields : RecordFields τ} {name : String} {value : Document}
    (h : fields.Agrees name value) (draft : fields.Draft) :
    fields.readMember .toml name value draft = fields.readMember .json name value draft := by
  induction fields with
  | nil => rfl
  | cons head tail ih =>
    obtain ⟨hhead, htail⟩ := h
    unfold readMember
    split
    · next hname => rw [hhead hname]
    · exact congrArg (_ <$> ·) (ih htail draft.2)

theorem readMembers_agrees {fields : RecordFields τ} {members : List (String × Document)}
    (h : ∀ member ∈ members, fields.Agrees member.1 member.2) (draft : fields.Draft) :
    fields.readMembers .toml none (members.map fun member => (.ofText member.1, member.2)) draft =
      fields.read members draft := by
  induction members generalizing draft with
  | nil => rfl
  | cons member members ih =>
    rw [List.forall_mem_cons] at h
    rw [read_cons, ← readMember_agrees h.1]
    change _ >>= _ = _
    exact congrArg (fields.readMember .toml member.1 member.2 draft >>= ·) (funext (ih h.2))

end RecordFields

theorem agrees_record {name : String} {fields : RecordFields τ} {make : τ → α} {parts : α → τ}
    {members : List (String × Document)}
    (h : ∀ member ∈ members, fields.Agrees member.1 member.2) :
    (record name fields make parts).Agrees (.ofMembers members) := by
  exact congrArg (· >>= fun draft => fields.complete draft >>= fun values => pure (make values))
    (RecordFields.readMembers_agrees h fields.blank)

/-! ## Look-ups -/

/-- The member of a field's name gives it a value, or its absence does. -/
def RecordField.Gives (field : RecordField α) (found : Option Document) (value : α) : Prop :=
  match found with
  | none => field.absence.inObject = some value
  | some document => field.codec.decode .json document = .ok value

namespace RecordFields

/-- Members that are looked up by name give the values of the fields. -/
def Gives : {τ : Type} → RecordFields τ → (String → Option Document) → τ → Prop
  | _, .nil, _, _ => True
  | _, .cons head tail, look, (value, values) =>
    head.Gives (look head.name) value ∧ tail.Gives look values

theorem gives_congr {fields : RecordFields τ} {look look' : String → Option Document} {values : τ}
    (h : ∀ name ∈ fields.names, look name = look' name) :
    fields.Gives look values ↔ fields.Gives look' values := by
  induction fields with
  | nil => rfl
  | cons head tail ih =>
    obtain ⟨value, values⟩ := values
    rw [names, List.forall_mem_cons] at h
    rw [Gives, Gives, h.1, ih h.2]

end RecordFields

/-- Of members with distinct names, at most one is that of a name. -/
theorem filter_eq_toList_lookup {members : List (String × Document)}
    (hdistinct : (members.map (·.1)).Nodup) (name : String) :
    members.filter (fun member => name = member.1) =
      ((members.lookup name).map fun document => (name, document)).toList := by
  induction members with
  | nil => rfl
  | cons member members ih =>
    rw [List.map_cons, List.nodup_cons] at hdistinct
    rw [Dictionary.lookup_cons_eq]
    by_cases hname : name = member.1
    · have hnone : members.filter (fun other => name = other.1) = [] := by
        refine List.filter_eq_nil_iff.mpr fun other ho => ?_
        have hne : name ≠ other.1 := by
          rintro rfl
          exact hdistinct.1 (hname ▸ List.mem_map_of_mem ho)
        simpa using hne
      rw [List.filter_cons_of_pos (by simpa using hname), hnone, if_pos hname, hname]
      rfl
    · rw [List.filter_cons_of_neg (by simpa using hname), if_neg hname, ih hdistinct.2]

/-- At most one member of a field's name is read as looked up. -/
theorem RecordField.takes_toList_iff {field : RecordField α} {name : String}
    {found : Option Document} {value : α} :
    field.Takes (found.map fun document => (name, document)).toList value ↔
      field.Gives found value := by
  cases found with
  | none => simp [Takes, Gives]
  | some document => simp [Takes, Gives]

namespace RecordFields

theorem lookup_filter_ne {name other : String} (hne : other ≠ name)
    (members : List (String × Document)) :
    (members.filter fun member => name ≠ member.1).lookup other = members.lookup other := by
  induction members with
  | nil => rfl
  | cons member members ih =>
    rw [Dictionary.lookup_cons_eq]
    by_cases hname : name = member.1
    · rw [List.filter_cons_of_neg (by simpa using hname), ih, if_neg (hname ▸ hne)]
    · rw [List.filter_cons_of_pos (by simpa using hname), Dictionary.lookup_cons_eq, ih]

/-- Members of distinct names, all of which are names of fields, are accepted by looking them up. -/
theorem accepts_iff_gives {fields : RecordFields τ} (hnames : fields.names.Nodup)
    {members : List (String × Document)} (hdistinct : (members.map (·.1)).Nodup)
    (hknown : ∀ member ∈ members, member.1 ∈ fields.names) {values : τ} :
    fields.Accepts members values ↔ fields.Gives (members.lookup ·) values := by
  induction fields generalizing members with
  | nil =>
    obtain rfl := List.eq_nil_iff_forall_not_mem.mpr fun member hm =>
      List.not_mem_nil (hknown member hm)
    exact iff_of_true (List.forall_mem_nil _) trivial
  | cons head tail ih =>
    obtain ⟨value, values⟩ := values
    obtain ⟨hhead, htail⟩ := List.nodup_cons.mp hnames
    have hrest : (members.filter fun member => head.name ≠ member.1).Sublist members :=
      List.filter_sublist
    have hknown' : ∀ member ∈ members.filter fun member => head.name ≠ member.1,
        member.1 ∈ tail.names := by
      intro member hm
      obtain ⟨hm, hne⟩ := List.mem_filter.mp hm
      exact (List.mem_cons.mp (hknown member hm)).resolve_left (Ne.symm (of_decide_eq_true hne))
    rw [Accepts, Gives, filter_eq_toList_lookup hdistinct, RecordField.takes_toList_iff,
      ih htail (hdistinct.sublist (hrest.map _)) hknown']
    refine and_congr_right' (gives_congr fun name hname => ?_)
    exact lookup_filter_ne (ne_of_mem_of_not_mem hname hhead) members

end RecordFields

/-- **A record is read from distinct members by look-ups**, in either kind of document. -/
theorem decode_toml_record_eq_ok_iff {name : String} {fields : RecordFields τ} {make : τ → α}
    {parts : α → τ} (hmake : ∀ value, make (parts value) = value)
    (hparts : ∀ values, parts (make values) = values) (hnames : fields.names.Nodup)
    {members : List (String × Document)} (hdistinct : (members.map (·.1)).Nodup)
    (hknown : ∀ member ∈ members, member.1 ∈ fields.names)
    (hagrees : ∀ member ∈ members, fields.Agrees member.1 member.2) {value : α} :
    (record name fields make parts).decode .toml (.ofMembers members) = .ok value ↔
      fields.Gives (members.lookup ·) (parts value) := by
  rw [agrees_record hagrees, decode_record_eq_ok_iff,
    ← RecordFields.accepts_iff_gives hnames hdistinct hknown]
  constructor
  · rintro ⟨values, haccepts, rfl⟩
    rwa [hparts]
  · intro haccepts
    exact ⟨parts value, haccepts, hmake value⟩

end ImportAtlas.Codec
