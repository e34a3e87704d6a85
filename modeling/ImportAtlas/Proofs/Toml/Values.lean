import ImportAtlas.Proofs.Json.Grammar
import ImportAtlas.Proofs.Toml.Numbers

/-!
# How values are spelled in TOML

The values that settings have: texts, truth values, counts and lists of texts. Between the parts of
a list may stand blanks, ends of lines and comments, and a comma may follow the last item. Whatever
is spelled so is read, if its line ends there.

## Main definitions

* `Gap`: blanks, ends of lines and comments
* `SpellsTexts`: the spellings of the items of a list, up to the closing bracket
* `Spells`: the spellings of a value

## Main results

* `skipGaps_append`: gaps are skipped
* `value?_append`: a spelled value is read
-/

namespace ImportAtlas.Toml

open Codec (Document Scalar)

/-! ## Gaps -/

/-- A comment, or none. -/
inductive Comment : List Char → Prop
  | none : Comment []
  | text {cs : List Char} (h : ∀ c ∈ cs, isPrintable c = true) : Comment ('#' :: cs)

/-- Blanks, ends of lines and comments. A comment lasts up to the end of its line. -/
inductive Gap : List Char → Prop
  | blanks {blanks : List Char} (h : ∀ c ∈ blanks, isSpace c = true) : Gap blanks
  | line {blanks note e gap : List Char} (hblanks : ∀ c ∈ blanks, isSpace c = true)
      (hnote : Comment note) (he : LineEnd e) (more : Gap gap) :
      Gap (blanks ++ (note ++ (e ++ gap)))

/-- Something that is not skipped follows, or nothing. -/
abbrev StopsGap (rest : List Char) : Prop := Stops [' ', '\t', '#', '\n', '\r'] rest

theorem skipSpaces_append {blanks rest : List Char} (h : ∀ c ∈ blanks, isSpace c = true)
    (hrest : Stops [' ', '\t'] rest) : skipSpaces (blanks ++ rest) = rest := by
  rw [skipSpaces, List.dropWhile_append_of_pos h]
  cases rest with
  | nil => rfl
  | cons c rest =>
    have hc : c ≠ ' ' ∧ c ≠ '\t' := by simpa using stops_cons.mp hrest
    exact List.dropWhile_cons_of_neg (by simp [isSpace, hc])

/-- A comment ends where its line does. -/
theorem skipComment_append {note : List Char} (h : Comment note) {c : Char}
    (hc : isPrintable c = false) (rest : List Char) :
    skipComment (note ++ c :: rest) = c :: rest := by
  cases h with
  | none =>
    have hhash : (c :: rest).head? ≠ some '#' := by
      intro he
      obtain rfl := Option.some.inj he
      cases hc
    rw [List.nil_append, skipComment, if_neg hhash]
  | @text cs h =>
    have hall : ∀ d ∈ '#' :: cs, isPrintable d = true := List.forall_mem_cons.mpr ⟨rfl, h⟩
    exact (if_pos rfl).trans (dropWhile_append_cons hall hc rest)

theorem LineEnd.exists_cons {e : List Char} (h : LineEnd e) :
    ∃ c tail, e = c :: tail ∧ isPrintable c = false ∧ c ∉ [' ', '\t'] := by
  cases h <;> exact ⟨_, _, rfl, rfl, by decide⟩

/-- What is left of a line without its blanks and its comment is its end. -/
theorem skipComment_skipSpaces_append {blanks note e : List Char}
    (hblanks : ∀ c ∈ blanks, isSpace c = true) (hnote : Comment note) (he : LineEnd e)
    (rest : List Char) :
    skipComment (skipSpaces (blanks ++ (note ++ (e ++ rest)))) = e ++ rest := by
  obtain ⟨c, tail, rfl, hprint, hc⟩ := he.exists_cons
  have hstop : Stops [' ', '\t'] (note ++ (c :: tail ++ rest)) := by
    cases hnote with
    | none => exact stops_cons.mpr hc
    | text => exact stops_cons.mpr (by decide)
  rw [skipSpaces_append hblanks hstop]
  exact skipComment_append hnote hprint (tail ++ rest)

/-- **Gaps are skipped.** -/
theorem skipGaps_append {gap : List Char} (h : Gap gap) {fuel : Nat} (hfuel : gap.length < fuel)
    {rest : List Char} (hrest : StopsGap rest) : skipGaps fuel (gap ++ rest) = rest := by
  induction h generalizing fuel with
  | blanks h =>
    obtain ⟨fuel, rfl⟩ := Nat.exists_eq_add_one_of_ne_zero (Nat.ne_zero_of_lt hfuel)
    have hspaces : Stops [' ', '\t'] rest := hrest.mono (by decide)
    have hcomment : skipComment rest = rest := if_neg (hrest.head?_ne (by decide))
    have hend : endOfLine? rest = none := endOfLine?_eq_none (hrest.mono (by decide))
    simp only [skipGaps, skipSpaces_append h hspaces, hcomment, hend]
  | @line blanks note e gap hblanks hnote he _ ih =>
    obtain ⟨fuel, rfl⟩ := Nat.exists_eq_add_one_of_ne_zero (Nat.ne_zero_of_lt hfuel)
    have hlength : gap.length < fuel := by
      obtain ⟨c, tail, rfl, -⟩ := he.exists_cons
      simp only [List.length_append, List.length_cons] at hfuel
      omega
    simp only [List.append_assoc, skipGaps, skipComment_skipSpaces_append hblanks hnote he,
      endOfLine?_append he]
    exact ih hlength

/-- What is left of a line is skipped with its end. -/
theorem restOfLine?_append {blanks note e : List Char} (hblanks : ∀ c ∈ blanks, isSpace c = true)
    (hnote : Comment note) (he : LineEnd e) (rest : List Char) :
    restOfLine? (blanks ++ (note ++ (e ++ rest))) = some rest := by
  rw [restOfLine?, skipComment_skipSpaces_append hblanks hnote he]
  cases he <;> rfl

/-- One more line. -/
theorem Gap.append_line {gap note e : List Char} (h : Gap gap) (hnote : Comment note)
    (he : LineEnd e) : Gap (gap ++ (note ++ e)) := by
  induction h with
  | blanks h =>
    have hline := Gap.line h hnote he (.blanks (List.forall_mem_nil _))
    rwa [List.append_nil] at hline
  | line hblanks hnote' he' _ ih =>
    simp only [List.append_assoc]
    exact .line hblanks hnote' he' ih

/-! ## Values -/

/-- The spellings of the items of a list, up to the closing bracket. A comma may follow the last
one. -/
inductive SpellsTexts : List String → List Char → Prop
  | close {gap : List Char} (hgap : Gap gap) : SpellsTexts [] (gap ++ [']'])
  | last {gap gap' cs : List Char} {s : String} (hgap : Gap gap) (h : SpellsText s cs)
      (hgap' : Gap gap') : SpellsTexts [s] (gap ++ (cs ++ (gap' ++ [']'])))
  | next {gap gap' cs cs' : List Char} {s : String} {more : List String} (hgap : Gap gap)
      (h : SpellsText s cs) (hgap' : Gap gap') (hmore : SpellsTexts more cs') :
      SpellsTexts (s :: more) (gap ++ (cs ++ (gap' ++ ',' :: cs')))

/-- The spellings of a value. -/
inductive Spells : Document → List Char → Prop
  | text {s : String} {cs : List Char} (h : SpellsText s cs) : Spells (.ofText s) cs
  | trueWord : Spells (.ofScalar (.boolean true)) ['t', 'r', 'u', 'e']
  | falseWord : Spells (.ofScalar (.boolean false)) ['f', 'a', 'l', 's', 'e']
  | count {n : Nat} {cs : List Char} (h : SpellsCount n cs) (hn : n ≤ Text.maxCount) :
      Spells (.ofScalar (.integer n)) cs
  | texts {items : List String} {cs : List Char} (h : SpellsTexts items cs) :
      Spells (.ofItems (items.map .ofText)) ('[' :: cs)

/-- Counts that are spelled fit into 64 bits. -/
theorem Spells.le_maxCount {n : Nat} {cs : List Char} (h : Spells (.ofScalar (.integer n)) cs) :
    n ≤ Text.maxCount := by
  generalize hd : Document.ofScalar (.integer n) = document at h
  cases h with
  | count _ hn =>
    cases hd
    exact hn
  | _ => cases hd

theorem SpellsText.exists_cons {s : String} {cs : List Char} (h : SpellsText s cs) :
    ∃ c cs', cs = c :: cs' ∧ c ∈ ['"', '\''] := by
  cases h with
  | quoted h => cases h <;> exact ⟨_, _, rfl, by decide⟩
  | basicLines | literalLines => exact ⟨_, _, rfl, by decide⟩

theorem value?_text {s : String} {cs : List Char} (h : SpellsText s cs) {fuel : Nat}
    (hfuel : cs.length < fuel) (depth : Nat) {rest : List Char}
    (hrest : Stops ['"', '\''] rest) :
    value? fuel depth (cs ++ rest) = some (.ofText s, rest) := by
  obtain ⟨fuel, rfl⟩ := Nat.exists_eq_add_one_of_ne_zero (Nat.ne_zero_of_lt hfuel)
  have hread := quotedLines?_append h (Nat.le_of_lt_succ hfuel) hrest
  obtain ⟨c, cs', rfl, hc⟩ := h.exists_cons
  simp only [List.mem_cons, List.not_mem_nil, or_false] at hc
  rcases hc with rfl | rfl <;> simp only [List.cons_append] at hread ⊢ <;>
    simp [value?, hread]

/-- No gap starts with a quote. -/
theorem Gap.stops_append {gap : List Char} (h : Gap gap) {rest : List Char}
    (hrest : Stops ['"', '\''] rest) : Stops ['"', '\''] (gap ++ rest) := by
  have hblank : ∀ {blanks rest : List Char}, (∀ c ∈ blanks, isSpace c = true) →
      Stops ['"', '\''] rest → Stops ['"', '\''] (blanks ++ rest) := by
    intro blanks rest hblanks hrest
    refine Stops.append (fun c hc hquote => ?_) hrest
    have hspace := hblanks c (List.mem_of_mem_head? hc)
    simp only [List.mem_cons, List.not_mem_nil, or_false] at hquote
    rcases hquote with rfl | rfl <;> cases hspace
  cases h with
  | blanks h => exact hblank h hrest
  | line hblanks hnote he _ =>
    rw [List.append_assoc]
    refine hblank hblanks ?_
    cases hnote with
    | text => exact stops_cons.mpr (by decide)
    | none => cases he <;> exact stops_cons.mpr (by decide)

/-- The reader of items goes on behind a text. -/
theorem items?_text {s : String} {cs gap after : List Char} (h : SpellsText s cs) (hgap : Gap gap)
    {fuel : Nat} (hfuel : gap.length < fuel) (hfuel' : cs.length < fuel) (depth : Nat)
    (hafter : Stops ['"', '\''] after) :
    items? (fuel + 1) depth (gap ++ (cs ++ after)) =
      match skipGaps fuel after with
      | ',' :: rest => do
        let (items, rest) ← items? fuel depth rest
        return (.ofText s :: items, rest)
      | ']' :: rest => return ([.ofText s], rest)
      | _ => failure := by
  have hread := value?_text h hfuel' depth hafter
  obtain ⟨c, cs', rfl, hc⟩ := h.exists_cons
  simp only [List.mem_cons, List.not_mem_nil, or_false] at hc
  have hstart : skipGaps fuel (gap ++ (c :: cs' ++ after)) = c :: cs' ++ after := by
    refine skipGaps_append hgap hfuel (stops_cons.mpr ?_)
    rcases hc with rfl | rfl <;> decide
  rw [items?, hstart]
  simp only [List.cons_append] at hread ⊢
  have hbracket : c ≠ ']' := by rcases hc with rfl | rfl <;> decide
  split
  · next he => exact absurd (List.cons.inj he).1 hbracket
  · rw [hread]
    rfl

/-- **Spelled items are read**, up to the closing bracket. -/
theorem items?_append {items : List String} {cs : List Char} (h : SpellsTexts items cs)
    {fuel : Nat} (hfuel : cs.length < fuel) (depth : Nat) (rest : List Char) :
    items? fuel depth (cs ++ rest) = some (items.map .ofText, rest) := by
  induction h generalizing fuel with
  | @close gap hgap =>
    obtain ⟨fuel, rfl⟩ := Nat.exists_eq_add_one_of_ne_zero (Nat.ne_zero_of_lt hfuel)
    simp only [List.length_append, List.length_cons, List.length_nil] at hfuel
    simp only [List.append_assoc, List.singleton_append, items?]
    rw [skipGaps_append hgap (by omega) (stops_cons.mpr (by decide))]
    rfl
  | @last gap gap' cs s hgap h hgap' =>
    obtain ⟨fuel, rfl⟩ := Nat.exists_eq_add_one_of_ne_zero (Nat.ne_zero_of_lt hfuel)
    simp only [List.length_append, List.length_cons, List.length_nil] at hfuel
    have hafter : Stops ['"', '\''] (gap' ++ ']' :: rest) :=
      hgap'.stops_append (stops_cons.mpr (by decide))
    simp only [List.append_assoc, List.singleton_append]
    rw [items?_text h hgap (by omega) (by omega) depth hafter,
      skipGaps_append hgap' (by omega) (stops_cons.mpr (by decide))]
    rfl
  | @next gap gap' cs cs' s more hgap h hgap' _ ih =>
    obtain ⟨fuel, rfl⟩ := Nat.exists_eq_add_one_of_ne_zero (Nat.ne_zero_of_lt hfuel)
    simp only [List.length_append, List.length_cons] at hfuel
    have hafter : Stops ['"', '\''] (gap' ++ ',' :: (cs' ++ rest)) :=
      hgap'.stops_append (stops_cons.mpr (by decide))
    simp only [List.append_assoc, List.cons_append]
    rw [items?_text h hgap (by omega) (by omega) depth hafter,
      skipGaps_append hgap' (by omega) (stops_cons.mpr (by decide))]
    simp only [ih (show cs'.length < fuel by omega)]
    rfl

theorem splitScalar_append {word : List Char} (h : ∀ c ∈ word, endsScalar c = false)
    (rest : List Char) : splitScalar (word ++ '\n' :: rest) = (word, '\n' :: rest) := by
  have hall : ∀ c ∈ word, (!endsScalar c) = true := fun c hc => by rw [h c hc]; rfl
  unfold splitScalar
  rw [takeWhile_append_cons hall rfl, dropWhile_append_cons hall rfl]
  rfl

theorem value?_scalar {word : List Char} (h : ∀ c ∈ word, endsScalar c = false)
    {document : Document} (hread : scalar? word = some document) (hne : word ≠ [])
    (fuel depth : Nat) (rest : List Char) :
    value? (fuel + 1) depth (word ++ '\n' :: rest) = some (document, '\n' :: rest) := by
  have hsplit := splitScalar_append h rest
  obtain ⟨c, word, rfl⟩ := List.exists_cons_of_ne_nil hne
  have hc := h c List.mem_cons_self
  have hstart : ∀ d, endsScalar d = true → c ≠ d := by
    rintro d hd rfl
    rw [hd] at hc
    cases hc
  rw [List.cons_append] at hsplit ⊢
  have hquote : ¬(c = '"' ∨ c = '\'') :=
    not_or.mpr ⟨hstart '"' rfl, hstart '\'' rfl⟩
  unfold value?
  split
  · next he => exact absurd (List.cons.inj he).1 (hstart '[' rfl)
  · next he => exact absurd (List.cons.inj he).1 (hstart '{' rfl)
  · next he =>
    obtain ⟨rfl, rfl⟩ := List.cons.inj he
    rw [if_neg hquote, hsplit]
    exact congrArg (Option.map fun document => (document, '\n' :: rest)) hread
  · next he => cases he

/-- **A spelled value is read**, if its line ends there. -/
theorem value?_append {document : Document} {cs : List Char} (h : Spells document cs) {fuel : Nat}
    (hfuel : cs.length < fuel) (rest : List Char) :
    value? fuel 0 (cs ++ '\n' :: rest) = some (document, '\n' :: rest) := by
  obtain ⟨fuel, rfl⟩ := Nat.exists_eq_add_one_of_ne_zero (Nat.ne_zero_of_lt hfuel)
  cases h with
  | text h => exact value?_text h hfuel 0 (stops_cons.mpr (by decide))
  | trueWord => exact value?_scalar (eq_false_of_any_eq_false rfl) rfl (by decide) fuel 0 rest
  | falseWord => exact value?_scalar (eq_false_of_any_eq_false rfl) rfl (by decide) fuel 0 rest
  | count h hn =>
    refine value?_scalar (fun c hc => h.endsScalar_eq_false hc) (scalar?_of_spellsCount h hn) ?_
      fuel 0 rest
    obtain ⟨c, cs', rfl, -⟩ := h.exists_cons
    exact List.cons_ne_nil c cs'
  | texts h =>
    have hread := items?_append h (Nat.lt_of_succ_lt_succ hfuel) 1 ('\n' :: rest)
    rw [List.cons_append, value?, hread]
    rfl

end ImportAtlas.Toml
