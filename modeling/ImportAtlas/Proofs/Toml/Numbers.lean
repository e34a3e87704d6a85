import ImportAtlas.Proofs.Toml.Quoted
import ImportAtlas.Toml.Reading

/-!
# How counts are spelled in TOML

A count has decimal digits after an optional plus, or the digits of another base after a zero and
the letter of the base. A single underscore may stand between two digits. Decimal digits do not
start with a zero unless it is the only one.

## Main definitions

* `Grouped`: digits with underscores between them
* `SpellsCount`: the spellings of a count

## Main results

* `scalar?_of_spellsCount`: a spelled count is read
-/

namespace ImportAtlas.Toml

open Codec (Document Scalar)

/-- Digits with underscores between them. -/
inductive Grouped : List Char → List Char → Prop
  | last {c : Char} : Grouped [c] [c]
  | next {c : Char} {digits cs : List Char} (more : Grouped digits cs) :
      Grouped (c :: digits) (c :: cs)
  | underscore {c : Char} {digits cs : List Char} (more : Grouped digits cs) :
      Grouped (c :: digits) (c :: '_' :: cs)

/-- The letters of the bases that have one. -/
def baseLetters : List (Char × Nat) := [('x', 16), ('o', 8), ('b', 2)]

/-- The spellings of a count. -/
inductive SpellsCount : Nat → List Char → Prop
  | decimal {sign digits cs : List Char} (hsign : sign ∈ [[], ['+']]) (h : Grouped digits cs)
      (hdigits : ∀ c ∈ digits, Text.isDigit c = true)
      (hzero : digits.head? = some '0' → digits = ['0']) :
      SpellsCount (valueOf 10 digits) (sign ++ cs)
  | based {letter : Char} {base : Nat} {digits cs : List Char}
      (hbase : (letter, base) ∈ baseLetters) (h : Grouped digits cs)
      (hdigits : ∀ c ∈ digits, (Text.digitValue? base c).isSome = true) :
      SpellsCount (valueOf base digits) ('0' :: letter :: cs)

/-! ## Digits -/

theorem Grouped.exists_cons {digits cs : List Char} (h : Grouped digits cs) :
    ∃ c digits' cs', digits = c :: digits' ∧ cs = c :: cs' := by
  cases h <;> exact ⟨_, _, _, rfl, rfl⟩

theorem Grouped.mem {digits cs : List Char} (h : Grouped digits cs) {c : Char} (hc : c ∈ cs) :
    c = '_' ∨ c ∈ digits := by
  induction h with
  | last => exact .inr hc
  | next _ ih =>
    rcases List.mem_cons.mp hc with rfl | hc
    · exact .inr List.mem_cons_self
    · exact (ih hc).imp_right (List.mem_cons_of_mem _)
  | underscore _ ih =>
    rcases List.mem_cons.mp hc with rfl | hc
    · exact .inr List.mem_cons_self
    · rcases List.mem_cons.mp hc with rfl | hc
      · exact .inl rfl
      · exact (ih hc).imp_right (List.mem_cons_of_mem _)

theorem ungroup_of_grouped {isDigit : Char → Bool} {digits cs : List Char} (h : Grouped digits cs)
    (hdigits : ∀ c ∈ digits, isDigit c = true) (hunderscore : isDigit '_' = false) :
    ungroup isDigit cs = some digits := by
  induction h with
  | last => rw [ungroup, if_pos (hdigits _ List.mem_cons_self)]
  | @next c digits cs more ih =>
    have hrest := ih fun d hd => hdigits d (List.mem_cons_of_mem c hd)
    obtain ⟨d, digits', cs', rfl, rfl⟩ := more.exists_cons
    have hd : d ≠ '_' := by
      rintro rfl
      rw [hdigits '_' (List.mem_cons_of_mem c List.mem_cons_self)] at hunderscore
      cases hunderscore
    rw [ungroup, if_pos (hdigits c List.mem_cons_self), hrest]
    · rfl
    · exact List.cons_ne_nil _ _
    · exact fun _ he => hd (List.cons.inj he).1
  | @underscore c digits cs more ih =>
    have hrest := ih fun d hd => hdigits d (List.mem_cons_of_mem c hd)
    rw [ungroup, if_pos (hdigits c List.mem_cons_self), hrest]
    rfl

/-! ## Counts -/

theorem hexValue?_isSome_of_isDigit {c : Char} (h : Text.isDigit c = true) :
    (Text.hexValue? c).isSome = true := by
  have hrange : (0x30 ≤ c.toNat && c.toNat ≤ 0x39) = true := h
  simp only [Text.hexValue?, hrange, if_true, Option.isSome_some]

theorem hexValue?_isSome_of_digitValue? {base : Nat} {c : Char}
    (h : (Text.digitValue? base c).isSome = true) : (Text.hexValue? c).isSome = true := by
  obtain ⟨value, hvalue⟩ := Option.isSome_iff_exists.mp h
  exact Option.isSome_iff_exists.mpr ⟨value, (Option.filter_eq_some_iff.mp hvalue).1⟩

/-- A digit of any base ends no value. -/
theorem endsScalar_eq_false_of_hexValue? {c : Char} (h : (Text.hexValue? c).isSome = true) :
    endsScalar c = false := by
  have hall : ∀ d ∈ [' ', '\t', '\n', '\r', ',', ']', '}', '#', '[', '{', '=', '"', '\''],
      (Text.hexValue? d).isSome = false := eq_false_of_any_eq_false rfl
  rw [← Bool.not_eq_true]
  intro hends
  simp only [endsScalar, isSpace, Bool.or_eq_true, beq_iff_eq, or_assoc] at hends
  rw [hall c (by simpa only [List.mem_cons, List.not_mem_nil, or_false] using hends)] at h
  cases h

/-- A count goes on until something ends it. -/
theorem SpellsCount.endsScalar_eq_false {n : Nat} {cs : List Char} (h : SpellsCount n cs) {c : Char}
    (hc : c ∈ cs) : endsScalar c = false := by
  cases h with
  | @decimal sign digits cs hsign h hdigits _ =>
    rcases List.mem_append.mp hc with hc | hc
    · have hall : ∀ c ∈ ['+'], endsScalar c = false := eq_false_of_any_eq_false rfl
      simp only [List.mem_cons, List.not_mem_nil, or_false] at hsign
      rcases hsign with rfl | rfl
      · cases hc
      · exact hall c hc
    · rcases h.mem hc with rfl | hc
      · rfl
      · exact endsScalar_eq_false_of_hexValue? (hexValue?_isSome_of_isDigit (hdigits c hc))
  | @based letter base digits cs hbase h hdigits =>
    rcases List.mem_cons.mp hc with rfl | hc
    · rfl
    · rcases List.mem_cons.mp hc with rfl | hc
      · have hall : ∀ pair ∈ baseLetters, endsScalar pair.1 = false := by decide
        exact hall (_, base) hbase
      · rcases h.mem hc with rfl | hc
        · rfl
        · exact endsScalar_eq_false_of_hexValue? (hexValue?_isSome_of_digitValue? (hdigits c hc))

/-- No count starts like a truth value. -/
theorem SpellsCount.exists_cons {n : Nat} {cs : List Char} (h : SpellsCount n cs) :
    ∃ c cs', cs = c :: cs' ∧ c ≠ 't' ∧ c ≠ 'f' := by
  cases h with
  | @decimal sign digits cs hsign h hdigits _ =>
    obtain ⟨c, digits', cs', rfl, rfl⟩ := h.exists_cons
    have hc := hdigits c List.mem_cons_self
    simp only [List.mem_cons, List.not_mem_nil, or_false] at hsign
    rcases hsign with rfl | rfl
    · refine ⟨c, cs', rfl, ?_, ?_⟩ <;> rintro rfl <;> cases hc
    · exact ⟨'+', _, rfl, by decide, by decide⟩
  | based => exact ⟨'0', _, rfl, by decide, by decide⟩

theorem wholeDigits?_of_grouped {digits cs : List Char} (h : Grouped digits cs)
    (hdigits : ∀ c ∈ digits, Text.isDigit c = true)
    (hzero : digits.head? = some '0' → digits = ['0']) : wholeDigits? cs = some digits := by
  have hshape : (digits.head? != some '0' || digits.length == 1) = true := by
    by_cases h0 : digits.head? = some '0'
    · rw [hzero h0]
      rfl
    · simp [h0]
  rw [wholeDigits?, ungroup_of_grouped h hdigits rfl, Option.filter_some, if_pos hshape]

/-- What does not start with the letter of a base is read as decimal. -/
theorem integer?_decimal {cs : List Char} (h : ∀ letter rest, cs ≠ '0' :: letter :: rest) :
    integer? cs = (wholeDigits? (splitSign cs).2).map fun digits =>
      integerDocument (if (splitSign cs).1 then -(valueOf 10 digits) else valueOf 10 digits) := by
  unfold integer?
  split
  · exact absurd rfl (h _ _)
  · exact absurd rfl (h _ _)
  · exact absurd rfl (h _ _)
  · rfl

/-- A zero in front of other digits is none. -/
theorem Grouped.ne_zero_cons {digits cs : List Char} (h : Grouped digits cs)
    (hzero : digits.head? = some '0' → digits = ['0']) (letter : Char) (rest : List Char) :
    cs ≠ '0' :: letter :: rest := by
  rintro rfl
  obtain ⟨c, digits', cs', rfl, he⟩ := h.exists_cons
  obtain ⟨rfl, rfl⟩ := List.cons.inj he
  obtain ⟨-, rfl⟩ := List.cons.inj (hzero rfl)
  cases h with
  | next more | underscore more => cases more

theorem splitSign_digit {c : Char} (hc : Text.isDigit c = true) (cs : List Char) :
    splitSign (c :: cs) = (false, c :: cs) := by
  unfold splitSign
  split
  · next he =>
    obtain ⟨rfl, -⟩ := List.cons.inj he
    cases hc
  · next he =>
    obtain ⟨rfl, -⟩ := List.cons.inj he
    cases hc
  · rfl

theorem integer?_of_spellsCount {n : Nat} {cs : List Char} (h : SpellsCount n cs) :
    integer? cs = some (integerDocument n) := by
  cases h with
  | @decimal sign digits cs hsign h hdigits hzero =>
    have hwhole := wholeDigits?_of_grouped h hdigits hzero
    simp only [List.mem_cons, List.not_mem_nil, or_false] at hsign
    rcases hsign with rfl | rfl
    · have hsign : splitSign cs = (false, cs) := by
        obtain ⟨c, digits', cs', rfl, rfl⟩ := h.exists_cons
        exact splitSign_digit (hdigits c List.mem_cons_self) cs'
      rw [List.nil_append, integer?_decimal (h.ne_zero_cons hzero), hsign, hwhole]
      rfl
    · have hplus : ∀ letter rest, ['+'] ++ cs ≠ '0' :: letter :: rest := by
        intro letter rest he
        exact absurd (List.cons.inj he).1 (by decide)
      rw [integer?_decimal hplus, List.singleton_append, splitSign, hwhole]
      rfl
  | @based letter base digits cs hbase h hdigits =>
    have hread : based? base cs = some (integerDocument (valueOf base digits)) := by
      rw [based?, ungroup_of_grouped h hdigits rfl]
      rfl
    simp only [baseLetters, List.mem_cons, List.not_mem_nil, or_false, Prod.mk.injEq] at hbase
    rcases hbase with ⟨rfl, rfl⟩ | ⟨rfl, rfl⟩ | ⟨rfl, rfl⟩ <;> exact hread

/-- **A spelled count is read**, if it fits into 64 bits. -/
theorem scalar?_of_spellsCount {n : Nat} {cs : List Char} (h : SpellsCount n cs)
    (hn : n ≤ Text.maxCount) : scalar? cs = some (.ofScalar (.integer n)) := by
  have hrange : minSigned ≤ (n : Int) ∧ (n : Int) ≤ Text.maxCount :=
    ⟨Int.le_trans (by decide) (Int.natCast_nonneg n), Int.ofNat_le.mpr hn⟩
  obtain ⟨c, cs', rfl, hc⟩ := h.exists_cons
  have htrue : c :: cs' ≠ ['t', 'r', 'u', 'e'] := fun he => hc.1 (List.cons.inj he).1
  have hfalse : c :: cs' ≠ ['f', 'a', 'l', 's', 'e'] := fun he => hc.2 (List.cons.inj he).1
  rw [scalar?, if_neg htrue, if_neg hfalse, integer?_of_spellsCount h, integerDocument,
    if_pos hrange]
  rfl

end ImportAtlas.Toml
