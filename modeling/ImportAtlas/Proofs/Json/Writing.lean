import ImportAtlas.Proofs.Json.Grammar

/-!
# What is written

A written value spells its document in both layouts, so reading gives the document back. Whole numbers
that fit into 64 bits stand for themselves.

## Main definitions

* `Numeral.ofInt`: the parts of a whole number
* `document`: the document of a value

## Main results

* `spells_write`: a written value spells its document
* `holds_compact`, `holds_pretty`: the text of a value holds its document
* `value_ofInt_natural`: a whole number of 64 bits stands for itself
-/

namespace ImportAtlas.Json

open Codec (Document Scalar ReadError)

/-! ## Digits -/

theorem isDigit_eq (c : Char) : Text.isDigit c = c.isDigit := by
  rfl

theorem digits_toDigits (n : Nat) : Digits (Nat.toDigits 10 n) := by
  refine ⟨Nat.toDigits_ne_nil, fun c hc => ?_⟩
  rw [isDigit_eq]
  exact Nat.isDigit_of_mem_toDigits (by decide) (by decide) hc

theorem digitChar_ne_zero {n : Nat} (hpos : 0 < n) (hlt : n < 10) : n.digitChar ≠ '0' := by
  have hall : ∀ n < 10, 0 < n → n.digitChar ≠ '0' := by decide
  exact hall n hlt hpos

/-- The digits of a number that is not zero do not start with a zero. -/
theorem head?_toDigits_ne {n : Nat} (hpos : 0 < n) : (Nat.toDigits 10 n).head? ≠ some '0' := by
  induction n using Nat.strongRecOn with
  | ind n ih =>
    by_cases hlt : n < 10
    · rw [Nat.toDigits_of_lt_base hlt]
      simpa using digitChar_ne_zero hpos hlt
    · have hle : 10 ≤ n := Nat.not_lt.mp hlt
      have hfirst := ih (n / 10) (Nat.div_lt_self hpos (by decide)) (Nat.div_pos hle (by decide))
      rw [Nat.toDigits_of_base_le (by decide) hle]
      cases hdigits : Nat.toDigits 10 (n / 10) with
      | nil => exact absurd hdigits Nat.toDigits_ne_nil
      | cons c digits => rwa [hdigits] at hfirst

theorem spellsWhole_natural (n : Nat) : SpellsWhole (Text.natural n).toList := by
  unfold Text.natural
  rw [String.toList_ofList]
  rcases Nat.eq_zero_or_pos n with rfl | hpos
  · exact .zero
  · exact .digits (digits_toDigits n) (head?_toDigits_ne hpos)

/-- The parts of a whole number. -/
def Numeral.ofInt (value : Int) : Numeral :=
  ⟨decide (value < 0), (Text.natural value.natAbs).toList, [], none⟩

theorem spellsNumeral_writeInteger (value : Int) :
    SpellsNumeral (.ofInt value) (writeInteger value) := by
  have hspells : SpellsNumeral (.ofInt value) _ :=
    .parts (spellsWhole_natural value.natAbs) .none .none
  rw [List.append_nil, List.append_nil] at hspells
  unfold writeInteger
  by_cases hneg : value < 0
  · rw [if_pos (decide_eq_true hneg)] at hspells
    rw [if_pos hneg]
    exact hspells
  · rw [if_neg hneg]
    simpa [hneg] using hspells

theorem decimalValue_singleton {c : Char} (h : Text.isDigit c = true) :
    Text.decimalValue [c] = c.toNat - '0'.toNat := by
  have hrange : 0x30 ≤ c.toNat ∧ c.toNat ≤ 0x39 := by
    simp only [Text.isDigit, Bool.and_eq_true, decide_eq_true_eq] at h
    exact h
  have hhex : Text.hexValue? c = some (c.toNat - '0'.toNat) := by
    unfold Text.hexValue?
    simp [hrange]
  have hdigit : Text.digitValue? 10 c = some (c.toNat - '0'.toNat) := by
    have hlt : c.toNat - '0'.toNat < 10 := by
      change c.toNat - 48 < 10
      omega
    rw [Text.digitValue?, hhex, Option.filter_some, if_pos (decide_eq_true hlt)]
  simp [Text.decimalValue, Text.ofDigits, hdigit]

theorem ofDigitChars_le (cs : List Char) (sofar : Nat) : sofar ≤ Nat.ofDigitChars 10 cs sofar := by
  rw [Nat.ofDigitChars_eq_ofDigitChars_zero]
  exact Nat.le_add_right_of_le (Nat.le_mul_of_pos_left _ (Nat.pow_pos (by decide)))

theorem accumulate_eq {cs : List Char} (hdigits : ∀ c ∈ cs, Text.isDigit c = true) (sofar : Nat)
    (h : Nat.ofDigitChars 10 cs sofar ≤ Text.maxCount) :
    Numeral.accumulate sofar cs = (Nat.ofDigitChars 10 cs sofar, []) := by
  induction cs generalizing sofar with
  | nil => rfl
  | cons c cs ih =>
    obtain ⟨hc, hcs⟩ := List.forall_mem_cons.mp hdigits
    rw [Nat.ofDigitChars_cons, Nat.mul_comm] at h ⊢
    have hnext := Nat.le_trans (ofDigitChars_le cs _) h
    rw [Numeral.accumulate, decimalValue_singleton hc]
    rw [if_neg (Nat.not_lt.mpr hnext), ih hcs _ h]

/-- A whole number that is not negative and fits into 64 bits stands for itself. -/
theorem value_ofInt_natural {n : Nat} (h : n ≤ Text.maxCount) :
    (Numeral.ofInt n).value = .ok (.integer n) := by
  have hdigits : (Text.natural n).toList = Nat.toDigits 10 n := String.toList_ofList
  have hvalue : Nat.ofDigitChars 10 (Nat.toDigits 10 n) 0 = n := Nat.ofDigitChars_ten_toDigits
  have haccumulate : Numeral.accumulate 0 (Text.natural n).toList = (n, []) := by
    rw [hdigits, accumulate_eq (digits_toDigits n).2 0 (by rwa [hvalue]), hvalue]
  have hsign : decide ((n : Int) < 0) = false := decide_eq_false (Int.not_lt.mpr (by omega))
  unfold Numeral.value Numeral.ofInt
  simp only [Int.natAbs_natCast, haccumulate, hsign]
  rfl

/-! ## Texts -/

theorem hexValue?_hexDigit {n : Nat} (h : n < 16) : Text.hexValue? (hexDigit n) = some n := by
  have hall : ∀ n < 16, Text.hexValue? (hexDigit n) = some n := by decide
  exact hall n h

theorem spellsChar_escape (c : Char) : SpellsChar c (escape c) := by
  unfold escape
  split
  case h_8 hquote hslash _ _ _ _ _ =>
    split
    · next hcontrol =>
      have hhex := SpellsHex.digits (show Text.hexValue? '0' = some 0 from rfl)
        (show Text.hexValue? '0' = some 0 from rfl)
        (hexValue?_hexDigit (n := c.toNat / 16) (by omega))
        (hexValue?_hexDigit (n := c.toNat % 16) (by omega))
      refine .digits ?_
      rwa [show 0 * 16 ^ 3 + 0 * 16 ^ 2 + c.toNat / 16 * 16 + c.toNat % 16 = c.toNat by omega]
        at hhex
    · next hcontrol => exact .plain hquote hslash (Nat.not_lt.mp hcontrol)
  all_goals constructor

theorem spellsChars_flatMap_escape (cs : List Char) : SpellsChars cs (cs.flatMap escape) := by
  induction cs with
  | nil => exact .nil
  | cons c cs ih => exact .cons (spellsChar_escape c) ih

theorem spellsText_writeText (s : String) : SpellsText s (writeText s) :=
  .quoted (spellsChars_flatMap_escape s.toList)

/-! ## Values -/

mutual

/-- The document of a value. -/
def document : Json → Document
  | .null => .null none
  | .boolean value => .ofScalar (.boolean value)
  | .integer value => .scalar (Numeral.ofInt value).value none
  | .text value => .ofText value
  | .array items => .ofItems (documents items)
  | .object members => .ofMembers (memberDocuments members)

/-- The documents of items. -/
def documents : List Json → List Document
  | [] => []
  | item :: items => document item :: documents items

/-- The documents of members, with their names. -/
def memberDocuments : List (String × Json) → List (String × Document)
  | [] => []
  | (name, value) :: members => (name, document value) :: memberDocuments members

end

theorem documents_eq_map (items : List Json) : documents items = items.map document := by
  induction items with
  | nil => rfl
  | cons item items ih => rw [documents, ih, List.map_cons]

theorem memberDocuments_eq_map (members : List (String × Json)) :
    memberDocuments members = members.map fun member => (member.1, member.2.document) := by
  induction members with
  | nil => rfl
  | cons member members ih => rw [memberDocuments, ih, List.map_cons]

theorem blanks_newline (layout : Layout) (depth : Nat) : Blanks (layout.newline depth) := by
  cases layout with
  | compact => exact List.forall_mem_nil _
  | spread =>
    intro c hc
    rcases List.mem_cons.mp hc with rfl | hc
    · simp
    · simp [List.eq_of_mem_replicate hc]

theorem Spells.blanks_append {document : Document} {blanks cs : List Char}
    (hblanks : Blanks blanks) (h : Spells document cs) : Spells document (blanks ++ cs) := by
  induction blanks with
  | nil => exact h
  | cons c blanks ih =>
    obtain ⟨hc, hblanks⟩ := List.forall_mem_cons.mp hblanks
    exact .blank hc (ih hblanks)

/-- The colon of either layout stands between a name and its value. -/
theorem spellsMember_colon (layout : Layout) (name : String) {value : Document} {cs : List Char}
    (h : Spells value cs) :
    SpellsMember (name, value) (writeText name ++ (layout.colon ++ cs)) := by
  have hname := spellsText_writeText name
  have hnone : Blanks [] := List.forall_mem_nil _
  cases layout with
  | compact => exact .parts hname hnone h
  | spread =>
    have hblank : ' ' ∈ [' ', '\n', '\t', '\r'] := List.mem_cons_self
    exact .parts hname hnone (.blank hblank h)

mutual

/-- **A written value spells its document**, in both layouts. -/
theorem spells_write (layout : Layout) (depth : Nat) (json : Json) :
    Spells json.document (write layout depth json) := by
  have hnone : Blanks [] := List.forall_mem_nil _
  have hnewline := blanks_newline layout (depth + 1)
  match json with
  | .null => exact .nullWord
  | .boolean true => exact .trueWord
  | .boolean false => exact .falseWord
  | .integer value => exact .number (spellsNumeral_writeInteger value)
  | .text value => exact .text (spellsText_writeText value)
  | .array [] => exact .list (.close hnone)
  | .array (item :: items) =>
    have hitem := (spells_write layout (depth + 1) item).blanks_append hnewline
    exact .list (.first hitem (spellsItems_writeItems layout depth items))
  | .object [] => exact .object (.close hnone)
  | .object ((name, value) :: members) =>
    have hmember := spellsMember_colon layout name (spells_write layout (depth + 1) value)
    have hmembers :=
      SpellsMembers.first hnewline hmember (spellsMembers_writeMembers layout depth members)
    simp only [write, List.append_assoc] at hmembers ⊢
    exact .object hmembers

theorem spellsItems_writeItems (layout : Layout) (depth : Nat) (items : List Json) :
    SpellsItems false (documents items)
      (writeItems layout (depth + 1) items ++ (layout.newline depth ++ [']'])) := by
  match items with
  | [] => exact .close (blanks_newline layout depth)
  | item :: items =>
    have hitem := (spells_write layout (depth + 1) item).blanks_append
      (blanks_newline layout (depth + 1))
    have hitems :=
      SpellsItems.next (List.forall_mem_nil _) hitem (spellsItems_writeItems layout depth items)
    simpa only [writeItems, documents, List.nil_append, List.cons_append, List.append_assoc]
      using hitems

theorem spellsMembers_writeMembers (layout : Layout) (depth : Nat)
    (members : List (String × Json)) :
    SpellsMembers false (memberDocuments members)
      (writeMembers layout (depth + 1) members ++ (layout.newline depth ++ ['}'])) := by
  match members with
  | [] => exact .close (blanks_newline layout depth)
  | (name, value) :: members =>
    have hmember := spellsMember_colon layout name (spells_write layout (depth + 1) value)
    have hmembers := SpellsMembers.next (List.forall_mem_nil _) (blanks_newline layout (depth + 1))
      hmember (spellsMembers_writeMembers layout depth members)
    simpa only [writeMembers, memberDocuments, List.nil_append, List.cons_append,
      List.append_assoc] using hmembers

end

theorem holds_ofList_write (layout : Layout) (json : Json) :
    Holds (String.ofList (json.write layout 0)) json.document :=
  ⟨json.write layout 0, [], by rw [String.toList_ofList, List.append_nil],
    spells_write layout 0 json, List.forall_mem_nil _⟩

/-- The text of a value without blanks holds its document. -/
theorem holds_compact (json : Json) : Holds json.compact json.document :=
  holds_ofList_write .compact json

/-- The text of a value spread over lines holds its document. -/
theorem holds_pretty (json : Json) : Holds json.pretty json.document :=
  holds_ofList_write .spread json

end ImportAtlas.Json
