import ImportAtlas.Proofs.Codec.Change

/-!
# Records in any order

The reader of a record fills in a draft member by member. What comes of it depends on each field's own
members alone: there is one of its name, which holds the value, or there is none, and the value is that
of a field left out. So the order of the members does not matter, nor do members of other names, and a
record that is written is read back.

## Main definitions

* `RecordField.Takes`: the members of a field's name give it a value
* `RecordFields.Accepts`: the members of an object give the values of all fields
* `RecordFields.Follows`: the fields are those of a shape

## Main results

* `decode_record_eq_ok_iff`: a record is read from the members that its fields accept
* `tolerates_record`: a record that follows a shape tolerates its changes
* `readsBack_record`: a record is read back if its fields are
-/

namespace ImportAtlas.Codec

variable {α τ : Type}

/-! ## Reading -/

/-- The members of a field's name give it a value: one member that holds it, or none. -/
def RecordField.Takes (field : RecordField α) (members : List (String × Document)) (value : α) :
    Prop :=
  members = [] ∧ field.absence.inObject = some value ∨
    ∃ member, members = [member] ∧ field.codec.decode .json member.2 = .ok value

/-- Members of a field's name go into its place: there are none, or there is one and the place was
free. -/
def RecordField.Collects (field : RecordField α) (members : List (String × Document))
    (known known' : Option α) : Prop :=
  members = [] ∧ known' = known ∨
    known = none ∧ ∃ member value, members = [member] ∧
      field.codec.decode .json member.2 = .ok value ∧ known' = some value

theorem RecordField.collects_some {field : RecordField α} {members : List (String × Document)}
    {value : α} {known' : Option α} :
    field.Collects members (some value) known' ↔ members = [] ∧ known' = some value := by
  simp [Collects]

theorem RecordField.collects_cons {field : RecordField α} {member : String × Document}
    {members : List (String × Document)} {known known' : Option α} :
    field.Collects (member :: members) known known' ↔
      known = none ∧ ∃ value, field.codec.decode .json member.2 = .ok value ∧
        field.Collects members (some value) known' := by
  simp only [collects_some]
  unfold Collects
  constructor
  · rintro (⟨hnil, -⟩ | ⟨hfree, _, value, hmember, hvalue, hknown⟩)
    · cases hnil
    · obtain ⟨rfl, rfl⟩ := List.cons.inj hmember
      exact ⟨hfree, value, hvalue, rfl, hknown⟩
  · rintro ⟨hfree, value, hvalue, rfl, hknown⟩
    exact .inr ⟨hfree, member, value, rfl, hvalue, hknown⟩

theorem RecordField.takes_iff {field : RecordField α} {members : List (String × Document)}
    {value : α} :
    field.Takes members value ↔
      ∃ known, field.Collects members none known ∧
        known.or field.absence.inObject = some value := by
  unfold Takes Collects
  constructor
  · rintro (⟨hnone, hvalue⟩ | ⟨member, hmember, hvalue⟩)
    · exact ⟨none, .inl ⟨hnone, rfl⟩, hvalue⟩
    · exact ⟨some value, .inr ⟨rfl, member, value, hmember, hvalue, rfl⟩, rfl⟩
  · rintro ⟨known, ⟨hnone, rfl⟩ | ⟨-, member, value', hmember, hvalue', rfl⟩, hvalue⟩
    · exact .inl ⟨hnone, hvalue⟩
    · obtain rfl := Option.some.inj hvalue
      exact .inr ⟨member, hmember, hvalue'⟩

namespace RecordFields

/-- The members of an object give the values of the fields; members of other names are skipped. -/
def Accepts : {τ : Type} → RecordFields τ → List (String × Document) → τ → Prop
  | _, .nil, members, _ => ∀ member ∈ members, member.2.skip = none
  | _, .cons head tail, members, (value, values) =>
    head.Takes (members.filter fun member => head.name = member.1) value ∧
      tail.Accepts (members.filter fun member => head.name ≠ member.1) values

/-- A draft in which one field and the fields after it have been read so far. -/
def draft {head : RecordField α} {tail : RecordFields τ} (known : Option α)
    (others : tail.Draft) : (RecordFields.cons head tail).Draft := (known, others)

/-- The members of an object as they are read. -/
def read (fields : RecordFields τ) (members : List (String × Document)) (sofar : fields.Draft) :
    Except ReadError fields.Draft :=
  fields.readMembers .json none (members.map fun member => (.ofText member.1, member.2)) sofar

theorem read_nil (fields : RecordFields τ) (sofar : fields.Draft) :
    fields.read [] sofar = .ok sofar := rfl

theorem read_cons (fields : RecordFields τ) (member : String × Document)
    (members : List (String × Document)) (sofar : fields.Draft) :
    fields.read (member :: members) sofar =
      fields.readMember .json member.1 member.2 sofar >>= fields.read members := rfl

section

variable {head : RecordField α} {tail : RecordFields τ} {name : String}

theorem draft_inj {known known' : Option α} {others others' : tail.Draft} :
    (draft known others : (RecordFields.cons head tail).Draft) = draft known' others' ↔
      known = known' ∧ others = others' :=
  Prod.ext_iff

theorem readMember_of_ne (hname : head.name ≠ name) (value : Document) (known : Option α)
    (others : tail.Draft) :
    (RecordFields.cons head tail).readMember .json name value (draft known others) =
      draft known <$> tail.readMember .json name value others := by
  rw [readMember, if_neg hname]
  rfl

theorem readMember_eq_ok_iff (hname : head.name = name) {value : Document} {known : Option α}
    {others : tail.Draft} {next : (RecordFields.cons head tail).Draft} :
    (RecordFields.cons head tail).readMember .json name value (draft known others) = .ok next ↔
      known = none ∧ ∃ found, head.codec.decode .json value = .ok found ∧
        draft (some found) others = next := by
  rw [readMember, if_pos hname]
  cases known with
  | some _ => simp [draft]
  | none =>
    refine Outcome.map_eq_ok_iff.trans ?_
    simp [draft]

/-- Reading goes on with the members of other names for the fields after the first one. -/
theorem read_draft_eq_ok_iff {members : List (String × Document)} {known known' : Option α}
    {others others' : tail.Draft} :
    (RecordFields.cons head tail).read members (draft known others) = .ok (draft known' others') ↔
      head.Collects (members.filter fun member => head.name = member.1) known known' ∧
        tail.read (members.filter fun member => head.name ≠ member.1) others = .ok others' := by
  -- The members before fill in the draft, so the draft that is read into is generalized.
  induction members generalizing known others with
  | nil =>
    rw [List.filter_nil, List.filter_nil, read_nil, read_nil, Except.ok.injEq, Except.ok.injEq,
      draft_inj]
    simp [RecordField.Collects, eq_comm]
  | cons member members ih =>
    rw [read_cons, Outcome.bind_eq_ok_iff]
    by_cases hname : head.name = member.1
    · rw [List.filter_cons_of_pos (by simpa using hname),
        List.filter_cons_of_neg (by simpa using hname), RecordField.collects_cons]
      simp only [readMember_eq_ok_iff hname]
      constructor
      · rintro ⟨_, ⟨hfree, found, hfound, rfl⟩, hrest⟩
        obtain ⟨hcollects, htail⟩ := ih.mp hrest
        exact ⟨⟨hfree, found, hfound, hcollects⟩, htail⟩
      · rintro ⟨⟨hfree, found, hfound, hcollects⟩, htail⟩
        exact ⟨_, ⟨hfree, found, hfound, rfl⟩, ih.mpr ⟨hcollects, htail⟩⟩
    · rw [List.filter_cons_of_neg (by simpa using hname),
        List.filter_cons_of_pos (by simpa using hname), read_cons, Outcome.bind_eq_ok_iff,
        readMember_of_ne hname]
      simp only [Outcome.map_eq_ok_iff]
      constructor
      · rintro ⟨_, ⟨next, hnext, rfl⟩, hrest⟩
        obtain ⟨hcollects, htail⟩ := ih.mp hrest
        exact ⟨hcollects, next, hnext, htail⟩
      · rintro ⟨hcollects, next, hnext, htail⟩
        exact ⟨_, ⟨next, hnext, rfl⟩, ih.mpr ⟨hcollects, htail⟩⟩

theorem complete_draft_eq_ok_iff {known : Option α} {others : tail.Draft} {value : α}
    {values : τ} :
    (RecordFields.cons head tail).complete (draft known others) = .ok (value, values) ↔
      known.or head.absence.inObject = some value ∧ tail.complete others = .ok values := by
  rw [complete]
  dsimp only [draft]
  split
  · next hnone => simp [hnone]
  · next found hfound =>
    rw [hfound, Outcome.map_eq_ok_iff]
    simp [and_comm]

end

theorem exists_read_nil_iff {members : List (String × Document)}
    (sofar : RecordFields.nil.Draft) :
    (∃ final, RecordFields.nil.read members sofar = .ok final) ↔
      ∀ member ∈ members, member.2.skip = none := by
  induction members generalizing sofar with
  | nil => simp [read_nil]
  | cons member members ih =>
    rw [read_cons, readMember, List.forall_mem_cons, ← ih sofar]
    cases member.2.skip with
    | some why => simp [bind, Except.bind]
    | none => simp [bind, Except.bind]

/-- **What is read depends on each field's own members alone.** -/
theorem accepts_iff {fields : RecordFields τ} {members : List (String × Document)} {values : τ} :
    fields.Accepts members values ↔ ∃ final, fields.read members fields.blank = .ok final ∧
      fields.complete final = .ok values := by
  induction fields generalizing members with
  | nil =>
    rw [Accepts, ← exists_read_nil_iff RecordFields.nil.blank]
    simp [complete]
  | cons head tail ih =>
    obtain ⟨value, values⟩ := values
    rw [Accepts, RecordField.takes_iff, ih]
    constructor
    · rintro ⟨⟨known, hcollects, hvalue⟩, others, hread, hvalues⟩
      exact ⟨draft known others, read_draft_eq_ok_iff.mpr ⟨hcollects, hread⟩,
        complete_draft_eq_ok_iff.mpr ⟨hvalue, hvalues⟩⟩
    · rintro ⟨⟨known, others⟩, hread, hcomplete⟩
      obtain ⟨hcollects, hread⟩ := read_draft_eq_ok_iff.mp hread
      obtain ⟨hvalue, hvalues⟩ := complete_draft_eq_ok_iff.mp hcomplete
      exact ⟨⟨known, hcollects, hvalue⟩, others, hread, hvalues⟩

end RecordFields

/-- A record is read from the members that its fields accept. -/
theorem decode_record_eq_ok_iff {name : String} {fields : RecordFields τ} {make : τ → α}
    {parts : α → τ} {members : List (String × Document)} {value : α} :
    (record name fields make parts).decode .json (.ofMembers members) = .ok value ↔
      ∃ values, fields.Accepts members values ∧ make values = value := by
  have hdecode : (record name fields make parts).decode .json (.ofMembers members) = (do
      let draft ← fields.read members fields.blank
      let values ← fields.complete draft
      return make values) := rfl
  simp only [hdecode, Outcome.bind_eq_ok_iff, RecordFields.accepts_iff]
  constructor
  · rintro ⟨final, hread, values, hcomplete, hvalue⟩
    exact ⟨values, ⟨final, hread, hcomplete⟩, Except.ok.inj hvalue⟩
  · rintro ⟨values, ⟨final, hread, hcomplete⟩, rfl⟩
    exact ⟨final, hread, values, hcomplete, rfl⟩

/-! ## Changes -/

theorem RecordField.Takes.perm {field : RecordField α}
    {members members' : List (String × Document)} {value : α} (h : members.Perm members')
    (htakes : field.Takes members value) : field.Takes members' value := by
  rcases htakes with ⟨rfl, hvalue⟩ | ⟨member, rfl, hvalue⟩
  · exact .inl ⟨List.nil_perm.mp h, hvalue⟩
  · exact .inr ⟨member, List.perm_singleton.mp h.symm, hvalue⟩

theorem RecordField.takes_cons {field : RecordField α} {member : String × Document}
    {members : List (String × Document)} {value : α} :
    field.Takes (member :: members) value ↔
      members = [] ∧ field.codec.decode .json member.2 = .ok value := by
  constructor
  · rintro (⟨hnil, -⟩ | ⟨_, hmember, hvalue⟩)
    · cases hnil
    · obtain ⟨rfl, rfl⟩ := List.cons.inj hmember
      exact ⟨rfl, hvalue⟩
  · rintro ⟨rfl, hvalue⟩
    exact .inr ⟨member, rfl, hvalue⟩

/-- A field is the one that a member of a shape speaks of. -/
structure RecordField.Follows (field : RecordField α) (member : MemberShape Shape) : Prop where
  name : field.name = member.name
  tolerates : field.codec.Tolerates member.shape
  missing : ∀ default, member.default = some default →
    ∃ value, field.absence.inObject = some value ∧
      field.codec.decode .json default.document = .ok value

theorem RecordField.Follows.takes_changed {field : RecordField α} {member : MemberShape Shape}
    (h : field.Follows member) {d d' : Document} (hchange : Change member.shape d d')
    {others : List (String × Document)} {value : α}
    (htakes : field.Takes ((member.name, d) :: others) value) :
    field.Takes ((member.name, d') :: others) value := by
  obtain ⟨hothers, hvalue⟩ := takes_cons.mp htakes
  exact takes_cons.mpr ⟨hothers, h.tolerates _ _ _ hchange hvalue⟩

theorem RecordField.Follows.takes_missing {field : RecordField α} {member : MemberShape Shape}
    (h : field.Follows member) {default : Json} (hdefault : member.default = some default)
    {others : List (String × Document)} {value : α}
    (htakes : field.Takes ((member.name, default.document) :: others) value) :
    field.Takes others value := by
  obtain ⟨rfl, hvalue⟩ := takes_cons.mp htakes
  obtain ⟨missing, hmissing, hread⟩ := h.missing default hdefault
  rw [hread] at hvalue
  exact .inl ⟨rfl, hmissing.trans (congrArg some (Except.ok.inj hvalue))⟩

namespace RecordFields

/-- The names of the fields, in order. -/
def names : {τ : Type} → RecordFields τ → List String
  | _, .nil => []
  | _, .cons head tail => head.name :: tail.names

/-- The fields are those of a shape, in order. -/
def Follows : {τ : Type} → RecordFields τ → List (MemberShape Shape) → Prop
  | _, .nil, [] => True
  | _, .cons head tail, member :: members => head.Follows member ∧ tail.Follows members
  | _, _, _ => False

theorem names_of_follows {fields : RecordFields τ} {members : List (MemberShape Shape)}
    (h : fields.Follows members) : fields.names = members.map (·.name) := by
  induction fields generalizing members with
  | nil =>
    cases members with
    | nil => rfl
    | cons => exact h.elim
  | cons head tail ih =>
    cases members with
    | nil => exact h.elim
    | cons member members => rw [names, List.map_cons, h.1.name, ih h.2]

section

variable {head : RecordField α} {tail : RecordFields τ} {given others : List (String × Document)}
  {value : α} {values : τ}

theorem filter_other {name : String} (hname : ∀ member ∈ given, name ≠ member.1) :
    given.filter (fun member => name = member.1) = [] ∧
      given.filter (fun member => name ≠ member.1) = given :=
  ⟨List.filter_eq_nil_iff.mpr fun member hm => by simpa using hname member hm,
    List.filter_eq_self.mpr fun member hm => decide_eq_true (hname member hm)⟩

/-- Members of the name of the first field are for that field alone. -/
theorem accepts_own (hname : ∀ member ∈ given, head.name = member.1) :
    (RecordFields.cons head tail).Accepts (given ++ others) (value, values) ↔
      head.Takes (given ++ others.filter fun member => head.name = member.1) value ∧
        tail.Accepts (others.filter fun member => head.name ≠ member.1) values := by
  have hown : given.filter (fun member => head.name = member.1) = given :=
    List.filter_eq_self.mpr fun member hm => decide_eq_true (hname member hm)
  have hother : given.filter (fun member => head.name ≠ member.1) = [] :=
    List.filter_eq_nil_iff.mpr fun member hm => by simpa using hname member hm
  rw [Accepts, List.filter_append, List.filter_append, hown, hother, List.nil_append]

/-- Members of other names are left for the fields after the first one. -/
theorem accepts_other (hname : ∀ member ∈ given, head.name ≠ member.1) :
    (RecordFields.cons head tail).Accepts (given ++ others) (value, values) ↔
      head.Takes (others.filter fun member => head.name = member.1) value ∧
        tail.Accepts (given ++ others.filter fun member => head.name ≠ member.1) values := by
  obtain ⟨hown, hother⟩ := filter_other hname
  rw [Accepts, List.filter_append, List.filter_append, hown, hother, List.nil_append]

end

theorem Accepts.perm {fields : RecordFields τ} {given given' : List (String × Document)}
    {values : τ} (h : given.Perm given') (haccepts : fields.Accepts given values) :
    fields.Accepts given' values := by
  induction fields generalizing given given' with
  | nil => exact fun member hm => haccepts member (h.mem_iff.mpr hm)
  | cons head tail ih => exact ⟨haccepts.1.perm (h.filter _), ih (h.filter _) haccepts.2⟩

/-- A member of a name that is none of the fields' is skipped. -/
theorem Accepts.cons_unknown {fields : RecordFields τ} {given : List (String × Document)}
    {values : τ} {unknown : String × Document} (hname : unknown.1 ∉ fields.names)
    (hskip : unknown.2.skip = none) (haccepts : fields.Accepts given values) :
    fields.Accepts ([unknown] ++ given) values := by
  induction fields generalizing given with
  | nil => exact List.forall_mem_cons.mpr ⟨hskip, haccepts⟩
  | cons head tail ih =>
    obtain ⟨hne, hnames⟩ := not_or.mp (List.mem_cons.not.mp hname)
    have hother : ∀ member ∈ [unknown], head.name ≠ member.1 := fun member hm =>
      List.mem_singleton.mp hm ▸ Ne.symm hne
    exact (accepts_other hother).mpr ⟨haccepts.1, ih hnames haccepts.2⟩

/-- The members of one field are exchanged for others that give it the same value. -/
theorem Accepts.exchange {fields : RecordFields τ} {members : List (MemberShape Shape)}
    (hfollows : fields.Follows members) (hdistinct : fields.names.Nodup)
    {member : MemberShape Shape} (hmember : member ∈ members)
    (given given' : List (String × Document)) {others : List (String × Document)} {values : τ}
    (hgiven : ∀ m ∈ given, m.1 = member.name) (hgiven' : ∀ m ∈ given', m.1 = member.name)
    (hexchange : ∀ {α : Type} (field : RecordField α), field.Follows member →
      ∀ others value, field.Takes (given ++ others) value → field.Takes (given' ++ others) value)
    (haccepts : fields.Accepts (given ++ others) values) :
    fields.Accepts (given' ++ others) values := by
  induction fields generalizing members others with
  | nil =>
    cases members with
    | nil => cases hmember
    | cons => exact hfollows.elim
  | cons head tail ih =>
    cases members with
    | nil => exact hfollows.elim
    | cons first members =>
      obtain ⟨hfirst, hfollows⟩ := hfollows
      obtain ⟨hnew, hdistinct⟩ := List.nodup_cons.mp hdistinct
      -- Names are distinct, so the members are either all for the first field or all for later ones.
      rcases List.mem_cons.mp hmember with rfl | hmember
      · have hown : ∀ ms : List (String × Document), (∀ m ∈ ms, m.1 = member.name) →
            ∀ m ∈ ms, head.name = m.1 := fun ms h m hm => hfirst.name.trans (h m hm).symm
        obtain ⟨htakes, haccepts⟩ := (accepts_own (hown given hgiven)).mp haccepts
        exact (accepts_own (hown given' hgiven')).mpr
          ⟨hexchange head hfirst _ _ htakes, haccepts⟩
      · have hne : head.name ≠ member.name := by
          intro he
          rw [names_of_follows hfollows, he] at hnew
          exact hnew (List.mem_map_of_mem hmember)
        have hother : ∀ ms : List (String × Document), (∀ m ∈ ms, m.1 = member.name) →
            ∀ m ∈ ms, head.name ≠ m.1 := fun ms h m hm => h m hm ▸ hne
        obtain ⟨htakes, haccepts⟩ := (accepts_other (hother given hgiven)).mp haccepts
        exact (accepts_other (hother given' hgiven')).mpr
          ⟨htakes, ih hfollows hdistinct hmember haccepts⟩

theorem Accepts.changed {fields : RecordFields τ} {members : List (MemberShape Shape)}
    (hfollows : fields.Follows members) (hdistinct : fields.names.Nodup)
    {member : MemberShape Shape} (hmember : member ∈ members) {d d' : Document}
    (hchange : Change member.shape d d') {others : List (String × Document)} {values : τ}
    (haccepts : fields.Accepts ((member.name, d) :: others) values) :
    fields.Accepts ((member.name, d') :: others) values :=
  Accepts.exchange hfollows hdistinct hmember [(member.name, d)] [(member.name, d')]
    (List.forall_mem_singleton.mpr rfl) (List.forall_mem_singleton.mpr rfl)
    (fun _ hfield _ _ => hfield.takes_changed hchange) haccepts

theorem Accepts.missing {fields : RecordFields τ} {members : List (MemberShape Shape)}
    (hfollows : fields.Follows members) (hdistinct : fields.names.Nodup)
    {member : MemberShape Shape} (hmember : member ∈ members) {default : Json}
    (hdefault : member.default = some default) {others : List (String × Document)} {values : τ}
    (haccepts : fields.Accepts ((member.name, default.document) :: others) values) :
    fields.Accepts others values :=
  Accepts.exchange hfollows hdistinct hmember [(member.name, default.document)] []
    (List.forall_mem_singleton.mpr rfl) (List.forall_mem_nil _)
    (fun _ hfield _ _ => hfield.takes_missing hdefault) haccepts

/-- A change of an object leaves the values that its members give. -/
theorem exists_accepts_of_change {fields : RecordFields τ} {members : List (MemberShape Shape)}
    (hfollows : fields.Follows members) (hdistinct : fields.names.Nodup) {d d' : Document}
    (h : Change (.record members) d d') :
    ∃ given given', d = .ofMembers given ∧ d' = .ofMembers given' ∧
      ∀ values, fields.Accepts given values → fields.Accepts given' values := by
  cases h with
  | member before after hmember hchange =>
    refine ⟨_, _, rfl, rfl, fun values haccepts => ?_⟩
    exact ((haccepts.perm List.perm_middle).changed hfollows hdistinct hmember hchange).perm
      List.perm_middle.symm
  | members hperm => exact ⟨_, _, rfl, rfl, fun values haccepts => haccepts.perm hperm⟩
  | unknown before after hname hskip =>
    refine ⟨_, _, rfl, rfl, fun values haccepts => ?_⟩
    refine (haccepts.cons_unknown ?_ hskip).perm List.perm_middle.symm
    rw [names_of_follows hfollows, List.mem_map]
    rintro ⟨member, hmember, hsame⟩
    exact hname member hmember hsame
  | missing before after hmember hdefault =>
    refine ⟨_, _, rfl, rfl, fun values haccepts => ?_⟩
    exact (haccepts.perm List.perm_middle).missing hfollows hdistinct hmember hdefault

end RecordFields

/-- **A record that follows a shape tolerates its changes.** -/
theorem tolerates_record {name : String} {fields : RecordFields τ} {make : τ → α}
    {parts : α → τ} {members : List (MemberShape Shape)} (hfollows : fields.Follows members)
    (hdistinct : fields.names.Nodup) :
    (record name fields make parts).Tolerates (.record members) := by
  intro d d' value hchange hread
  obtain ⟨given, given', rfl, rfl, haccepts⟩ :=
    RecordFields.exists_accepts_of_change hfollows hdistinct hchange
  obtain ⟨values, hvalues, hvalue⟩ := decode_record_eq_ok_iff.mp hread
  exact decode_record_eq_ok_iff.mpr ⟨values, haccepts values hvalues, hvalue⟩

/-! ## Fields of each kind -/

theorem follows_field (name : String) {codec : Codec α} {shape : Shape}
    (h : codec.Tolerates shape) : (field name codec).Follows { name, shape } where
  name := rfl
  tolerates := h
  missing _ hdefault := by cases hdefault

theorem follows_defaulted (name : String) {codec : Codec α} {shape : Shape} {value : α}
    {default : Json} (h : codec.Tolerates shape)
    (hdefault : codec.decode .json default.document = .ok value) :
    (defaulted name codec value).Follows { name, shape, default } where
  name := rfl
  tolerates := h
  missing _ hsame := ⟨value, rfl, Option.some.inj hsame ▸ hdefault⟩

theorem follows_nullable (name : String) {codec : Codec α} {shape : Shape}
    (h : codec.Tolerates shape) :
    (nullable name codec).Follows { name, shape, default := some .null } where
  name := rfl
  tolerates := tolerates_optional h
  missing _ hsame := ⟨none, rfl, Option.some.inj hsame ▸ rfl⟩

/-! ## Writing -/

/-- The value of a field is read back, or is that of a field left out if it is not written. -/
def RecordField.ReadsBack (field : RecordField α) (value : α) : Prop :=
  if field.isWritten value then field.codec.ReadsBack value
  else field.absence.inObject = some value

namespace RecordFields

/-- The values of the fields are read back. -/
def ReadsBack : {τ : Type} → RecordFields τ → τ → Prop
  | _, .nil, _ => True
  | _, .cons head tail, (value, values) => head.ReadsBack value ∧ tail.ReadsBack values

theorem fst_mem_names_of_mem_encode {fields : RecordFields τ} {values : τ}
    {member : String × Json} (h : member ∈ fields.encode values) : member.1 ∈ fields.names := by
  induction fields with
  | nil => cases h
  | cons head tail ih =>
    obtain ⟨value, values⟩ := values
    rw [encode] at h
    split at h
    · rcases List.mem_cons.mp h with rfl | h
      · exact List.mem_cons_self
      · exact List.mem_cons_of_mem _ (ih h)
    · exact List.mem_cons_of_mem _ (ih h)

/-- The fields accept the members that they are written as. -/
theorem accepts_encode {fields : RecordFields τ} {values : τ} (hdistinct : fields.names.Nodup)
    (h : fields.ReadsBack values) :
    fields.Accepts (Json.memberDocuments (fields.encode values)) values := by
  induction fields with
  | nil => exact List.forall_mem_nil _
  | cons head tail ih =>
    obtain ⟨value, values⟩ := values
    obtain ⟨hnew, hdistinct⟩ := List.nodup_cons.mp hdistinct
    have hnames : ∀ member ∈ Json.memberDocuments (tail.encode values), head.name ≠ member.1 := by
      rw [Json.memberDocuments_eq_map, List.forall_mem_map]
      exact fun member hm he => hnew (he ▸ fst_mem_names_of_mem_encode hm)
    obtain ⟨hhead, htail⟩ := h
    have haccepts := ih hdistinct htail
    obtain ⟨hown, hother⟩ := filter_other hnames
    rw [← hother] at haccepts
    unfold RecordField.ReadsBack at hhead
    rw [encode]
    split at hhead
    · next hwritten =>
      rw [if_pos hwritten, Json.memberDocuments]
      refine (accepts_own (List.forall_mem_singleton.mpr rfl)).mpr ⟨?_, haccepts⟩
      rw [hown]
      exact .inr ⟨_, rfl, hhead⟩
    · next hwritten =>
      rw [if_neg hwritten]
      refine ⟨?_, haccepts⟩
      rw [hown]
      exact .inl ⟨rfl, hhead⟩

end RecordFields

/-- **A record is read back if its fields are.** -/
theorem readsBack_record {name : String} {fields : RecordFields τ} {make : τ → α}
    {parts : α → τ} {value : α} (hdistinct : fields.names.Nodup)
    (hmake : make (parts value) = value) (h : fields.ReadsBack (parts value)) :
    (record name fields make parts).ReadsBack value :=
  decode_record_eq_ok_iff.mpr ⟨parts value, RecordFields.accepts_encode hdistinct h, hmake⟩

end ImportAtlas.Codec
