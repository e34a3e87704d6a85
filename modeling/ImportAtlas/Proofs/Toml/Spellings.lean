import ImportAtlas.Proofs.Toml.Lines

/-!
# Everything has a spelling

Every text can be spelled with an escape by number for each of its characters, every count with the
digits of base sixteen, and every list item by item. So whatever is shown of all spellings of a
value is shown of one at least.

## Main results

* `exists_spellsKey`, `exists_spellsText`, `exists_spellsCount`, `exists_spellsTexts`: spellings of
  keys, texts, counts and lists
-/

namespace ImportAtlas.Toml

theorem exists_hexDigit {value : Nat} (h : value < 16) :
    ∃ digit, Text.digitValue? 16 digit = some value := by
  have hall : ∀ value : Fin 16,
      Text.digitValue? 16 ("0123456789abcdef".toList.getD value ' ') = some value.val := by
    decide
  exact ⟨_, hall ⟨value, h⟩⟩

/-- A number has as many digits as one likes, if it is small enough. -/
theorem exists_hexDigits {width n : Nat} (h : n < 16 ^ width) :
    ∃ digits, digits.length = width ∧
      (∀ digit ∈ digits, (Text.digitValue? 16 digit).isSome = true) ∧ valueOf 16 digits = n := by
  induction width generalizing n with
  | zero => exact ⟨[], rfl, List.forall_mem_nil _, (Nat.lt_one_iff.mp h).symm⟩
  | succ width ih =>
    obtain ⟨digits, hlength, hdigits, hn⟩ :=
      ih (Nat.div_lt_of_lt_mul (by rwa [Nat.pow_succ'] at h))
    obtain ⟨digit, hdigit⟩ := exists_hexDigit (Nat.mod_lt n (by decide : 0 < 16))
    refine ⟨digits ++ [digit], ?_, ?_, ?_⟩
    · rw [List.length_append, hlength, List.length_singleton]
    · exact List.forall_mem_append.mpr
        ⟨hdigits, List.forall_mem_singleton.mpr (by rw [hdigit, Option.isSome_some])⟩
    · unfold valueOf Text.ofDigits at hn ⊢
      rw [List.map_append, List.foldl_append, hn, List.map_singleton, List.foldl_cons,
        List.foldl_nil, hdigit, Option.getD_some, Nat.div_add_mod']

/-- Every character has an escape by number. -/
theorem exists_spellsEscape (c : Char) : ∃ cs, SpellsEscape c cs := by
  obtain ⟨digits, hlength, hdigits, hc⟩ :=
    exists_hexDigits (show c.toNat < 16 ^ 8 from c.val.toNat_lt)
  have hwidth : ('U', digits.length) ∈ escapeWidths := by
    rw [hlength]
    decide
  refine ⟨_, .number hwidth (List.forall₂_map_right_iff.mpr (List.forall₂_same.mpr ?_)) hc⟩
  intro digit hd
  obtain ⟨value, hvalue⟩ := Option.isSome_iff_exists.mp (hdigits digit hd)
  rw [hvalue, Option.getD_some]
  exact (Option.filter_eq_some_iff.mp hvalue).1

/-- Every text has a spelling on one line. -/
theorem exists_spellsQuoted (s : String) : ∃ cs, SpellsQuoted s cs := by
  have hchars : ∀ s : List Char, ∃ cs, SpellsChars s cs := by
    intro s
    induction s with
    | nil => exact ⟨[], .nil⟩
    | cons c s ih =>
      obtain ⟨escape, hescape⟩ := exists_spellsEscape c
      obtain ⟨cs, hcs⟩ := ih
      exact ⟨_, .cons (.escape hescape) hcs⟩
  obtain ⟨cs, hcs⟩ := hchars s.toList
  exact ⟨_, .basic hcs⟩

theorem exists_spellsText (s : String) : ∃ cs, SpellsText s cs :=
  (exists_spellsQuoted s).imp fun _ => .quoted

theorem exists_spellsKey (key : String) : ∃ cs, SpellsKey key cs :=
  (exists_spellsQuoted key).imp fun _ => .quoted

theorem grouped_self {cs : List Char} (h : cs ≠ []) : Grouped cs cs := by
  induction cs with
  | nil => exact absurd rfl h
  | cons c cs ih =>
    cases cs with
    | nil => exact .last
    | cons d cs => exact .next (ih (List.cons_ne_nil d cs))

theorem exists_spellsCount (n : Nat) : ∃ cs, SpellsCount n cs := by
  have hn : n < 16 ^ (n + 1) := Nat.lt_trans (Nat.lt_succ_self n) (Nat.lt_pow_self (by decide))
  obtain ⟨digits, hlength, hdigits, rfl⟩ := exists_hexDigits hn
  have hne : digits ≠ [] := List.ne_nil_of_length_pos (hlength ▸ Nat.succ_pos _)
  exact ⟨_, .based (show ('x', 16) ∈ baseLetters by decide) (grouped_self hne) hdigits⟩

theorem exists_spellsTexts (items : List String) : ∃ cs, SpellsTexts items cs := by
  have hgap : Gap [] := .blanks (List.forall_mem_nil _)
  induction items with
  | nil => exact ⟨_, .close hgap⟩
  | cons s items ih =>
    obtain ⟨cs, hcs⟩ := exists_spellsText s
    obtain ⟨cs', hcs'⟩ := ih
    exact ⟨_, .next hgap hcs hgap hcs'⟩

end ImportAtlas.Toml
