import ImportAtlas.Proofs.Json.Spelling

/-!
# How documents are spelled in JSON

A text holds a document if it spells it, with any blanks before, after and between its parts. From such
a text the document is read, so what a codec makes of the text depends on the document alone.

## Main definitions

* `Codec.Document.ofItems`, `Codec.Document.ofMembers`: lists and objects without faults
* `Spells`: the spellings of a document
* `Holds`: texts that spell a document and nothing else

## Main results

* `Spells.skip_eq_none`: a spelled document can be skipped
* `readValue_append`: a spelled document is read, whatever stands after it
* `read_eq_of_holds`: a codec reads the document that a text holds
-/

namespace ImportAtlas

namespace Codec.Document

/-- A list that reads well. -/
def ofItems (items : List Document) : Document := .sequence items none

/-- An object that reads well. -/
def ofMembers (members : List (String × Document)) : Document :=
  .map (members.map fun member => (.ofText member.1, member.2)) none

end Codec.Document

namespace Json

open Codec (Document Scalar)

mutual

/-- The spellings of a document, after any blanks. -/
inductive Spells : Document → List Char → Prop
  | blank {document : Document} {c : Char} {cs : List Char} (hc : c ∈ [' ', '\n', '\t', '\r'])
      (h : Spells document cs) : Spells document (c :: cs)
  | nullWord : Spells (.null none) ['n', 'u', 'l', 'l']
  | trueWord : Spells (.ofScalar (.boolean true)) ['t', 'r', 'u', 'e']
  | falseWord : Spells (.ofScalar (.boolean false)) ['f', 'a', 'l', 's', 'e']
  | number {numeral : Numeral} {cs : List Char} (h : SpellsNumeral numeral cs) :
      Spells (.scalar numeral.value none) cs
  | text {s : String} {cs : List Char} (h : SpellsText s cs) : Spells (.ofText s) cs
  | list {items : List Document} {cs : List Char} (h : SpellsItems true items cs) :
      Spells (.ofItems items) ('[' :: cs)
  | object {members : List (String × Document)} {cs : List Char}
      (h : SpellsMembers true members cs) : Spells (.ofMembers members) ('{' :: cs)

/-- The spellings of items up to the closing bracket, from the first one or from the comma on. -/
inductive SpellsItems : Bool → List Document → List Char → Prop
  | close {first : Bool} {blanks : List Char} (hblanks : Blanks blanks) :
      SpellsItems first [] (blanks ++ [']'])
  | first {item : Document} {items : List Document} {cs cs' : List Char} (h : Spells item cs)
      (more : SpellsItems false items cs') : SpellsItems true (item :: items) (cs ++ cs')
  | next {blanks cs cs' : List Char} {item : Document} {items : List Document}
      (hblanks : Blanks blanks) (h : Spells item cs) (more : SpellsItems false items cs') :
      SpellsItems false (item :: items) (blanks ++ ',' :: (cs ++ cs'))

/-- The spellings of members up to the closing brace, from the first one or from the comma on. -/
inductive SpellsMembers : Bool → List (String × Document) → List Char → Prop
  | close {first : Bool} {blanks : List Char} (hblanks : Blanks blanks) :
      SpellsMembers first [] (blanks ++ ['}'])
  | first {member : String × Document} {members : List (String × Document)}
      {blanks cs cs' : List Char} (hblanks : Blanks blanks) (h : SpellsMember member cs)
      (more : SpellsMembers false members cs') :
      SpellsMembers true (member :: members) (blanks ++ (cs ++ cs'))
  | next {member : String × Document} {members : List (String × Document)}
      {blanks blanks' cs cs' : List Char} (hblanks : Blanks blanks) (hblanks' : Blanks blanks')
      (h : SpellsMember member cs) (more : SpellsMembers false members cs') :
      SpellsMembers false (member :: members) (blanks ++ ',' :: (blanks' ++ (cs ++ cs')))

/-- The spellings of a name, a colon and a value. -/
inductive SpellsMember : String × Document → List Char → Prop
  | parts {name : String} {value : Document} {blanks cs cs' : List Char}
      (hname : SpellsText name cs) (hblanks : Blanks blanks) (hvalue : Spells value cs') :
      SpellsMember (name, value) (cs ++ (blanks ++ ':' :: cs'))

end

/-- Texts that spell a document, perhaps with blanks around it, and nothing else. -/
def Holds (s : String) (document : Document) : Prop :=
  ∃ cs blanks, s.toList = cs ++ blanks ∧ Spells document cs ∧ Blanks blanks

/-! ## Skipping what is spelled -/

mutual

/-- What is spelled can be skipped. So a member that nobody asks for may hold any value. -/
theorem Spells.skip_eq_none {document : Document} {cs : List Char} (h : Spells document cs) :
    document.skip = none :=
  match h with
  | .blank _ h => h.skip_eq_none
  | .nullWord | .trueWord | .falseWord | .number _ | .text _ => rfl
  | .list h => by rw [Document.ofItems, Document.skip, h.skipItems_eq_none, Option.none_or]
  | .object h => by rw [Document.ofMembers, Document.skip, h.skipEntries_eq_none, Option.none_or]

theorem SpellsItems.skipItems_eq_none {first : Bool} {items : List Document} {cs : List Char}
    (h : SpellsItems first items cs) : Document.skipItems items = none :=
  match h with
  | .close _ => rfl
  | .first h more | .next _ h more => by
    rw [Document.skipItems, h.skip_eq_none, more.skipItems_eq_none, Option.none_or]

theorem SpellsMembers.skipEntries_eq_none {first : Bool} {members : List (String × Document)}
    {cs : List Char} (h : SpellsMembers first members cs) :
    Document.skipEntries (members.map fun member => (.ofText member.1, member.2)) = none :=
  match h with
  | .close _ => rfl
  | .first _ (.parts _ _ h) more | .next _ _ (.parts _ _ h) more => by
    have hname : ∀ s, (Document.ofText s).skipName = none := fun _ => rfl
    rw [List.map_cons, Document.skipEntries, hname, h.skip_eq_none, more.skipEntries_eq_none,
      Option.none_or, Option.none_or]

end

/-! ## Reading what is spelled -/

theorem readValue_blanks {blanks : List Char} (h : Blanks blanks) (fuel : Nat)
    (rest : List Char) : readValue fuel (blanks ++ rest) = readValue fuel rest := by
  cases fuel with
  | zero => simp only [readValue]
  | succ fuel => simp only [readValue, skipBlanks_append h]

theorem readValue_simple {c : Char} (hblank : isBlank c = false) (hquote : c ≠ '"')
    (hbracket : c ≠ '[') (hbrace : c ≠ '{') (fuel : Nat) (rest : List Char) :
    readValue (fuel + 1) (c :: rest) = simpleDocument c (c :: rest) := by
  simp only [readValue, skipBlanks_cons hblank]

/-- The first character of a number starts nothing else. -/
theorem ne_of_isSign_or_isDigit {c d : Char} (hc : c = '-' ∨ Text.isDigit c = true)
    (hminus : d ≠ '-') (hdigit : Text.isDigit d = false) : c ≠ d := by
  rintro rfl
  rcases hc with rfl | hc
  · exact hminus rfl
  · rw [hdigit] at hc
    cases hc

theorem not_isBlank_of_isSign_or_isDigit {c : Char} (hc : c = '-' ∨ Text.isDigit c = true) :
    isBlank c = false := by
  rw [Bool.eq_false_iff, Ne, isBlank_iff]
  simp only [List.mem_cons, List.not_mem_nil, or_false, not_or]
  have hne := fun d => ne_of_isSign_or_isDigit (d := d) hc
  exact ⟨hne _ (by decide) rfl, hne _ (by decide) rfl, hne _ (by decide) rfl,
    hne _ (by decide) rfl⟩

theorem simpleDocument_number {numeral : Numeral} {c : Char} {cs rest : List Char}
    (hc : c = '-' ∨ Text.isDigit c = true) (h : readNumeral cs = .ok (numeral, rest)) :
    simpleDocument c cs = (.scalar numeral.value none, some rest) := by
  have hn : c ≠ 'n' := ne_of_isSign_or_isDigit hc (by decide) rfl
  have ht : c ≠ 't' := ne_of_isSign_or_isDigit hc (by decide) rfl
  have hf : c ≠ 'f' := ne_of_isSign_or_isDigit hc (by decide) rfl
  rw [simpleDocument, if_neg hn, if_neg ht, if_neg hf, if_pos hc, numberDocument, h]

theorem readValue_number {numeral : Numeral} {cs rest : List Char}
    (h : SpellsNumeral numeral cs) (hrest : Stops rest) (fuel : Nat) :
    readValue (fuel + 1) (cs ++ rest) = (.scalar numeral.value none, some rest) := by
  have hread := readNumeral_append h hrest
  obtain ⟨c, cs, rfl, hc⟩ := h.exists_cons
  have hquote : c ≠ '"' := ne_of_isSign_or_isDigit hc (by decide) rfl
  have hbracket : c ≠ '[' := ne_of_isSign_or_isDigit hc (by decide) rfl
  have hbrace : c ≠ '{' := ne_of_isSign_or_isDigit hc (by decide) rfl
  rw [List.cons_append] at hread ⊢
  rw [readValue_simple (not_isBlank_of_isSign_or_isDigit hc) hquote hbracket hbrace]
  exact simpleDocument_number hc hread

theorem readValue_text {s : String} {cs : List Char} (h : SpellsText s cs) {fuel : Nat}
    (hfuel : cs.length ≤ fuel) (rest : List Char) :
    readValue (fuel + 1) (cs ++ rest) = (.ofText s, some rest) := by
  have hread := readName_append h hfuel rest
  obtain ⟨cs, rfl⟩ := h.exists_cons
  exact hread

/-! ## Where parts start and stop -/

theorem stops_cons {c : Char} (hc : c ∈ [',', ']', '}']) (rest : List Char) :
    Stops (c :: rest) := by
  intro d hd
  obtain rfl := Option.some.inj hd
  exact .inr hc

theorem SpellsItems.stops_append {items : List Document} {cs : List Char}
    (h : SpellsItems false items cs) (rest : List Char) : Stops (cs ++ rest) := by
  cases h with
  | close hblanks | next hblanks h more =>
    rw [List.append_assoc]
    exact hblanks.stops_append (stops_cons (by simp) _)

theorem SpellsMembers.stops_append {members : List (String × Document)} {cs : List Char}
    (h : SpellsMembers false members cs) (rest : List Char) : Stops (cs ++ rest) := by
  cases h with
  | close hblanks | next hblanks hblanks' h more =>
    rw [List.append_assoc]
    exact hblanks.stops_append (stops_cons (by simp) _)

theorem SpellsItems.length_pos {items : List Document} {cs : List Char}
    (h : SpellsItems false items cs) : 0 < cs.length := by
  cases h with
  | close hblanks | next hblanks h more =>
    rw [List.length_append]
    exact Nat.add_pos_right _ (Nat.zero_lt_succ _)

theorem SpellsMembers.length_pos {members : List (String × Document)} {cs : List Char}
    (h : SpellsMembers false members cs) : 0 < cs.length := by
  cases h with
  | close hblanks | next hblanks hblanks' h more =>
    rw [List.length_append]
    exact Nat.add_pos_right _ (Nat.zero_lt_succ _)

theorem SpellsMember.exists_cons {member : String × Document} {cs : List Char}
    (h : SpellsMember member cs) : ∃ cs', cs = '"' :: cs' := by
  cases h with
  | parts hname hblanks hvalue =>
    obtain ⟨cs', rfl⟩ := hname.exists_cons
    exact ⟨_, rfl⟩

/-- After its blanks a spelled document starts with a character that closes no list. -/
theorem Spells.exists_blanks {document : Document} {cs : List Char} (h : Spells document cs) :
    ∃ blanks c cs', cs = blanks ++ c :: cs' ∧ Blanks blanks ∧ isBlank c = false ∧ c ≠ ']' :=
  match h with
  | .blank hc h => by
    obtain ⟨blanks, c, cs', rfl, hblanks, hfirst⟩ := h.exists_blanks
    exact ⟨_ :: blanks, c, cs', rfl, List.forall_mem_cons.mpr ⟨hc, hblanks⟩, hfirst⟩
  | .number h => by
    obtain ⟨c, cs', rfl, hc⟩ := h.exists_cons
    exact ⟨[], c, cs', rfl, List.forall_mem_nil _, not_isBlank_of_isSign_or_isDigit hc,
      ne_of_isSign_or_isDigit hc (by decide) rfl⟩
  | .text h => by
    obtain ⟨cs', rfl⟩ := h.exists_cons
    exact ⟨[], _, _, rfl, List.forall_mem_nil _, rfl, by decide⟩
  | .nullWord | .trueWord | .falseWord | .list _ | .object _ =>
    ⟨[], _, _, rfl, List.forall_mem_nil _, rfl, by decide⟩

/-! ## Steps of the reader -/

section

variable {fuel : Nat} {cs more rest : List Char}

theorem readItems_close (first : Bool) (hskip : skipBlanks cs = ']' :: rest) :
    readItems (fuel + 1) first cs = ([], none, some rest) := by
  simp only [readItems, hskip, if_pos]

theorem readItems_first {c : Char} {tail : List Char} {item : Document} {items : List Document}
    (hskip : skipBlanks cs = c :: tail) (hc : c ≠ ']')
    (hitem : readValue fuel (c :: tail) = (item, some more))
    (hmore : readItems fuel false more = (items, none, some rest)) :
    readItems (fuel + 1) true cs = (item :: items, none, some rest) := by
  simp only [readItems, hskip, if_neg hc, if_pos, hitem, Run.cons, hmore]

theorem readItems_next {tail : List Char} {item : Document} {items : List Document}
    (hskip : skipBlanks cs = ',' :: tail) (hitem : readValue fuel tail = (item, some more))
    (hmore : readItems fuel false more = (items, none, some rest)) :
    readItems (fuel + 1) false cs = (item :: items, none, some rest) := by
  have hcomma : ',' ≠ ']' := by decide
  simp only [readItems, hskip, if_neg hcomma, if_pos, hitem, Run.cons, hmore,
    Bool.false_eq_true, if_false]

theorem readMembers_close (first : Bool) (hskip : skipBlanks cs = '}' :: rest) :
    readMembers (fuel + 1) first cs = ([], none, some rest) := by
  simp only [readMembers, hskip, if_pos]

variable {member : Document × Document} {members : List (Document × Document)}

theorem readMembers_first {tail : List Char} (hskip : skipBlanks cs = '"' :: tail)
    (hmember : readMember fuel ('"' :: tail) = (member, some more))
    (hmore : readMembers fuel false more = (members, none, some rest)) :
    readMembers (fuel + 1) true cs = (member :: members, none, some rest) := by
  have hquote : '"' ≠ '}' := by decide
  simp only [readMembers, hskip, if_neg hquote, if_pos, hmember, Run.cons, hmore]

theorem readMembers_next {tail tail' : List Char} (hskip : skipBlanks cs = ',' :: tail)
    (hskip' : skipBlanks tail = tail')
    (hmember : readMember fuel tail' = (member, some more))
    (hmore : readMembers fuel false more = (members, none, some rest)) :
    readMembers (fuel + 1) false cs = (member :: members, none, some rest) := by
  have hcomma : ',' ≠ '}' := by decide
  simp only [readMembers, hskip, if_neg hcomma, if_pos, hskip', hmember, Run.cons, hmore,
    Bool.false_eq_true, if_false]

theorem readMember_parts {name value : Document} {tail : List Char}
    (hname : readName fuel cs = (name, some more)) (hskip : skipBlanks more = ':' :: tail)
    (hvalue : readValue fuel tail = (value, some rest)) :
    readMember (fuel + 1) cs = ((name, value), some rest) := by
  simp only [readMember, hname, hskip, if_pos, hvalue]

theorem readValue_list {items : List Document}
    (h : readItems fuel true cs = (items, none, some rest)) :
    readValue (fuel + 1) ('[' :: cs) = (.ofItems items, some rest) := by
  have hskip : skipBlanks ('[' :: cs) = '[' :: cs := rfl
  simp only [readValue, hskip, h, Document.ofItems]

theorem readValue_object {members : List (String × Document)}
    (h : readMembers fuel true cs =
      (members.map fun member => (.ofText member.1, member.2), none, some rest)) :
    readValue (fuel + 1) ('{' :: cs) = (.ofMembers members, some rest) := by
  have hskip : skipBlanks ('{' :: cs) = '{' :: cs := rfl
  simp only [readValue, hskip, h, Document.ofMembers]

end

/-! ## Reading a whole document -/

mutual

/-- **A spelled document is read**, whatever stands after it. -/
theorem readValue_append {document : Document} {cs : List Char} (h : Spells document cs)
    {fuel : Nat} (hfuel : 2 * cs.length < fuel) {rest : List Char} (hrest : Stops rest) :
    readValue fuel (cs ++ rest) = (document, some rest) := by
  -- Along the spelling. Any two steps pass a character at least, so the fuel that is left stays
  -- above twice the length of what is still to be read.
  obtain ⟨fuel, rfl⟩ := Nat.exists_eq_add_one_of_ne_zero (Nat.ne_zero_of_lt hfuel)
  match h with
  | .blank hc h =>
    have hblank : Blanks [_] := List.forall_mem_singleton.mpr hc
    rw [List.length_cons] at hfuel
    refine (readValue_blanks hblank (fuel + 1) _).trans ?_
    exact readValue_append h (by omega) hrest
  | .nullWord | .trueWord | .falseWord => rfl
  | .number h => exact readValue_number h hrest fuel
  | .text h => exact readValue_text h (by omega) rest
  | .list h =>
    rw [List.length_cons] at hfuel
    exact readValue_list (readItems_append h (by omega) rest)
  | .object h =>
    rw [List.length_cons] at hfuel
    exact readValue_object (readMembers_append h (by omega) rest)

/-- Spelled items are read up to their bracket. -/
theorem readItems_append {first : Bool} {items : List Document} {cs : List Char}
    (h : SpellsItems first items cs) {fuel : Nat} (hfuel : 2 * cs.length < fuel)
    (rest : List Char) : readItems fuel first (cs ++ rest) = (items, none, some rest) := by
  obtain ⟨fuel, rfl⟩ := Nat.exists_eq_add_one_of_ne_zero (Nat.ne_zero_of_lt hfuel)
  match h with
  | .close hblanks =>
    rw [List.append_assoc]
    exact readItems_close _ (skipBlanks_append hblanks _)
  | .first h more =>
    have hpos := more.length_pos
    rw [List.length_append] at hfuel
    have hitem := readValue_append h (by omega : 2 * _ < fuel) (more.stops_append rest)
    obtain ⟨blanks, c, tail, rfl, hblanks, hblank, hc⟩ := h.exists_blanks
    rw [List.length_append, List.length_cons] at hfuel
    rw [List.append_assoc, readValue_blanks hblanks] at hitem
    rw [List.append_assoc, List.append_assoc]
    exact readItems_first ((skipBlanks_append hblanks _).trans (skipBlanks_cons hblank _)) hc hitem
      (readItems_append more (by omega) rest)
  | .next hblanks h more =>
    rw [List.length_append, List.length_cons, List.length_append] at hfuel
    rw [List.append_assoc, List.cons_append, List.append_assoc]
    exact readItems_next (skipBlanks_append hblanks _)
      (readValue_append h (by omega) (more.stops_append rest))
      (readItems_append more (by omega) rest)

/-- Spelled members are read up to their brace. -/
theorem readMembers_append {first : Bool} {members : List (String × Document)} {cs : List Char}
    (h : SpellsMembers first members cs) {fuel : Nat} (hfuel : 2 * cs.length < fuel)
    (rest : List Char) :
    readMembers fuel first (cs ++ rest) =
      (members.map fun member => (.ofText member.1, member.2), none, some rest) := by
  obtain ⟨fuel, rfl⟩ := Nat.exists_eq_add_one_of_ne_zero (Nat.ne_zero_of_lt hfuel)
  match h with
  | .close hblanks =>
    rw [List.append_assoc]
    exact readMembers_close _ (skipBlanks_append hblanks _)
  | .first hblanks h more =>
    have hpos := more.length_pos
    rw [List.length_append, List.length_append] at hfuel
    have hmember := readMember_append h (by omega : 2 * _ < fuel) (more.stops_append rest)
    obtain ⟨tail, rfl⟩ := h.exists_cons
    rw [List.length_cons] at hfuel
    rw [List.append_assoc, List.append_assoc]
    exact readMembers_first (skipBlanks_append hblanks _) hmember
      (readMembers_append more (by omega) rest)
  | .next hblanks hblanks' h more =>
    rw [List.length_append, List.length_cons, List.length_append, List.length_append] at hfuel
    have hmember := readMember_append h (by omega : 2 * _ < fuel) (more.stops_append rest)
    obtain ⟨tail, rfl⟩ := h.exists_cons
    rw [List.append_assoc, List.cons_append, List.append_assoc, List.append_assoc]
    exact readMembers_next (skipBlanks_append hblanks _) (skipBlanks_append hblanks' _) hmember
      (readMembers_append more (by omega) rest)

/-- A spelled name and its value are read. -/
theorem readMember_append {member : String × Document} {cs : List Char}
    (h : SpellsMember member cs) {fuel : Nat} (hfuel : 2 * cs.length < fuel) {rest : List Char}
    (hrest : Stops rest) :
    readMember fuel (cs ++ rest) = ((.ofText member.1, member.2), some rest) := by
  obtain ⟨fuel, rfl⟩ := Nat.exists_eq_add_one_of_ne_zero (Nat.ne_zero_of_lt hfuel)
  match h with
  | .parts hname hblanks hvalue =>
    rw [List.length_append, List.length_append, List.length_cons] at hfuel
    rw [List.append_assoc, List.append_assoc, List.cons_append]
    exact readMember_parts (readName_append hname (by omega) _) (skipBlanks_append hblanks _)
      (readValue_append hvalue (by omega) hrest)

end

/-- **A codec reads the document that a text holds.** -/
theorem read_eq_of_holds {α : Type} (codec : Codec α) {s : String} {document : Document}
    (h : Holds s document) : read codec s = codec.decode .json document := by
  obtain ⟨cs, blanks, hs, hspells, hblanks⟩ := h
  have hstops : Stops blanks := by
    have hstops : Stops (blanks ++ []) := hblanks.stops_append fun c hc => by cases hc
    rwa [List.append_nil] at hstops
  have hparse : parse s = (document, some blanks) := by
    unfold parse
    rw [hs]
    refine readValue_append hspells ?_ hstops
    rw [List.length_append]
    omega
  have hend : ((some blanks).any fun rest => (skipBlanks rest).isEmpty) = true := by
    rw [Option.any_some, skipBlanks_of_blanks hblanks]
    rfl
  unfold read
  rw [hparse]
  simp only [hend, if_pos]
  exact bind_pure _

end Json

end ImportAtlas
