import ImportAtlas.Toml.Quoted
import Mathlib.Data.List.Forall2

/-!
# How texts are spelled in TOML

A text stands between double quotes, where a character is itself or an escape, or between single
quotes, where every character is itself. Between three quotes of a kind it may go over several
lines, and up to two quotes in a row belong to the text. Whatever is spelled so is read, unless one
more quote follows.

## Main definitions

* `LineEnd`: the ends of lines
* `SpellsEscape`, `SpellsChars`: the spellings of characters between double quotes
* `BasicPart`, `LiteralPart`, `SpellsLines`: the spellings over several lines
* `SpellsQuoted`, `SpellsText`: the spellings of a text, on one line or on several

## Main results

* `quoted?_append`: a text spelled on one line is read
* `quotedLines?_append`: a spelled text is read
-/

namespace ImportAtlas.Toml

/-! ## What follows -/

/-- None of some characters follows. -/
def Stops (stops rest : List Char) : Prop := ∀ c, rest.head? = some c → c ∉ stops

section

variable {stops rest : List Char} {c : Char}

theorem stops_nil : Stops stops [] := fun _ h => by cases h

theorem stops_cons : Stops stops (c :: rest) ↔ c ∉ stops := by
  simp [Stops]

theorem Stops.head?_ne (h : Stops stops rest) (hc : c ∈ stops) : rest.head? ≠ some c :=
  fun he => h c he hc

theorem Stops.mono {fewer : List Char} (h : Stops stops rest) (hfewer : fewer ⊆ stops) :
    Stops fewer rest :=
  fun c hc hmem => h c hc (hfewer hmem)

theorem Stops.append {cs : List Char} (h : Stops stops cs) (hrest : Stops stops rest) :
    Stops stops (cs ++ rest) := by
  cases cs with
  | nil => exact hrest
  | cons c cs => exact h

end

/-- What is not found in a list holds of none of its characters. -/
theorem eq_false_of_any_eq_false {p : Char → Bool} {cs : List Char} (h : cs.any p = false) :
    ∀ c ∈ cs, p c = false := fun c hc =>
  Bool.eq_false_iff.mpr (List.any_eq_false.mp h c hc)

/-- What is taken from a text while it has a property, up to a character without it. -/
theorem takeWhile_append_cons {p : Char → Bool} {cs : List Char} (h : ∀ c ∈ cs, p c = true)
    {c : Char} (hc : p c = false) (rest : List Char) : (cs ++ c :: rest).takeWhile p = cs := by
  rw [List.takeWhile_append_of_pos h, List.takeWhile_cons_of_neg (by simp [hc]), List.append_nil]

theorem dropWhile_append_cons {p : Char → Bool} {cs : List Char} (h : ∀ c ∈ cs, p c = true)
    {c : Char} (hc : p c = false) (rest : List Char) :
    (cs ++ c :: rest).dropWhile p = c :: rest := by
  rw [List.dropWhile_append_of_pos h, List.dropWhile_cons_of_neg (by simp [hc])]

/-! ## Characters between double quotes -/

/-- The letters of escapes, with the characters that they stand for. -/
def escapeLetters : List (Char × Char) :=
  [('b', '\x08'), ('t', '\t'), ('n', '\n'), ('f', '\x0c'), ('r', '\r'), ('e', '\x1b'), ('"', '"'),
    ('\\', '\\')]

/-- The letters of escapes by number, with how many digits they take. -/
def escapeWidths : List (Char × Nat) := [('x', 2), ('u', 4), ('U', 8)]

/-- The escapes of a character, after their backslash. -/
inductive SpellsEscape : Char → List Char → Prop
  | letter {letter c : Char} (h : (letter, c) ∈ escapeLetters) : SpellsEscape c [letter]
  | number {letter c : Char} {digits : List Char} {values : List Nat}
      (hwidth : (letter, digits.length) ∈ escapeWidths)
      (hdigits : List.Forall₂ (fun digit value => Text.hexValue? digit = some value) digits values)
      (hc : Text.ofDigits 16 values = c.toNat) : SpellsEscape c (letter :: digits)

/-- The characters that stand for one character between double quotes. -/
inductive SpellsChar : Char → List Char → Prop
  | plain {c : Char} (hquote : c ≠ '"') (hslash : c ≠ '\\') (hprint : isPrintable c = true) :
      SpellsChar c [c]
  | escape {c : Char} {cs : List Char} (h : SpellsEscape c cs) : SpellsChar c ('\\' :: cs)

/-- The spellings of characters between double quotes, one after the other. -/
inductive SpellsChars : List Char → List Char → Prop
  | nil : SpellsChars [] []
  | cons {c : Char} {s cs cs' : List Char} (head : SpellsChar c cs) (tail : SpellsChars s cs') :
      SpellsChars (c :: s) (cs ++ cs')

theorem mapM_eq_some_of_forall₂ {α β : Type} {f : α → Option β} {xs : List α} {ys : List β}
    (h : List.Forall₂ (fun x y => f x = some y) xs ys) : xs.mapM f = some ys := by
  induction h with
  | nil => rfl
  | cons hx _ ih =>
    rw [List.mapM_cons, hx, ih]
    rfl

theorem codePoint?_append {c : Char} {digits : List Char} {values : List Nat}
    (hdigits : List.Forall₂ (fun digit value => Text.hexValue? digit = some value) digits values)
    (hc : Text.ofDigits 16 values = c.toNat) (rest : List Char) :
    codePoint? digits.length (digits ++ rest) = some (c, rest) := by
  have hvalid : c.toNat < 0xD800 ∨ 0xDFFF < c.toNat ∧ c.toNat < 0x110000 := c.valid
  have hlength : values.length = digits.length := hdigits.length_eq.symm
  unfold codePoint?
  rw [List.take_left, List.drop_left, mapM_eq_some_of_forall₂ hdigits]
  simp only [bind, Option.bind, hc, if_pos (And.intro hlength hvalid), Char.ofNat_toNat]
  rfl

theorem escape?_append {c : Char} {cs : List Char} (h : SpellsEscape c cs) (rest : List Char) :
    escape? (cs ++ rest) = some (c, rest) := by
  cases h with
  | letter h =>
    simp only [escapeLetters, List.mem_cons, List.not_mem_nil, or_false, Prod.mk.injEq] at h
    rcases h with ⟨rfl, rfl⟩ | ⟨rfl, rfl⟩ | ⟨rfl, rfl⟩ | ⟨rfl, rfl⟩ | ⟨rfl, rfl⟩ | ⟨rfl, rfl⟩ |
      ⟨rfl, rfl⟩ | ⟨rfl, rfl⟩ <;> rfl
  | number hwidth hdigits hc =>
    have hread := codePoint?_append hdigits hc rest
    simp only [escapeWidths, List.mem_cons, List.not_mem_nil, or_false, Prod.mk.injEq] at hwidth
    rcases hwidth with ⟨rfl, hlength⟩ | ⟨rfl, hlength⟩ | ⟨rfl, hlength⟩ <;>
      rw [hlength] at hread <;> exact hread

/-- What spells a character is read as that character. -/
theorem basic?_append_of_spellsChar {c : Char} {cs : List Char} (h : SpellsChar c cs) (fuel : Nat)
    (sofar rest : List Char) :
    basic? (fuel + 1) sofar (cs ++ rest) = basic? fuel (c :: sofar) rest := by
  cases h with
  | plain hquote hslash hprint =>
    rw [List.singleton_append, basic?, if_pos hprint]
    · exact hquote
    · exact hslash
  | escape h => rw [List.cons_append, basic?, escape?_append h]

theorem SpellsChar.length_pos {c : Char} {cs : List Char} (h : SpellsChar c cs) :
    0 < cs.length := by
  cases h <;> exact Nat.zero_lt_succ _

theorem basic?_append {s cs : List Char} (h : SpellsChars s cs) {fuel : Nat}
    (hfuel : cs.length < fuel) (sofar rest : List Char) :
    basic? fuel sofar (cs ++ '"' :: rest) = some (String.ofList (sofar.reverse ++ s), rest) := by
  induction h generalizing fuel sofar with
  | nil =>
    obtain ⟨fuel, rfl⟩ := Nat.exists_eq_add_one_of_ne_zero (Nat.ne_zero_of_lt hfuel)
    rw [List.append_nil]
    rfl
  | @cons c s cs cs' head tail ih =>
    obtain ⟨fuel, rfl⟩ := Nat.exists_eq_add_one_of_ne_zero (Nat.ne_zero_of_lt hfuel)
    have hpos := head.length_pos
    rw [List.length_append] at hfuel
    rw [List.append_assoc, basic?_append_of_spellsChar head, ih (by omega), List.reverse_cons,
      List.append_assoc, List.singleton_append]

/-! ## Texts on one line -/

/-- Whether a character may stand between single quotes. -/
def isLiteral (c : Char) : Bool := isPrintable c && c != '\''

/-- The spellings of a text on one line, with its quotes. -/
inductive SpellsQuoted : String → List Char → Prop
  | basic {s : String} {cs : List Char} (h : SpellsChars s.toList cs) :
      SpellsQuoted s ('"' :: (cs ++ ['"']))
  | literal {s : String} (h : ∀ c ∈ s.toList, isLiteral c = true) :
      SpellsQuoted s ('\'' :: (s.toList ++ ['\'']))

theorem literal?_append {cs : List Char} (h : ∀ c ∈ cs, isLiteral c = true) (rest : List Char) :
    literal? (cs ++ '\'' :: rest) = some (String.ofList cs, rest) := by
  have hliteral : (fun c => isPrintable c && c != '\'') = isLiteral := rfl
  rw [literal?, hliteral, dropWhile_append_cons h rfl, takeWhile_append_cons h rfl]
  rfl

/-- **A text spelled on one line is read**, whatever stands after it. -/
theorem quoted?_append {s : String} {cs : List Char} (h : SpellsQuoted s cs) {fuel : Nat}
    (hfuel : cs.length ≤ fuel) (rest : List Char) : quoted? fuel (cs ++ rest) = some (s, rest) := by
  cases h with
  | @basic cs h =>
    rw [List.length_cons, List.length_append] at hfuel
    rw [List.cons_append, List.append_assoc, List.singleton_append]
    exact (basic?_append h (by omega) [] rest).trans (by rw [List.reverse_nil, List.nil_append,
      String.ofList_toList])
  | literal h =>
    rw [List.cons_append, List.append_assoc, List.singleton_append]
    exact (literal?_append h rest).trans (by rw [String.ofList_toList])

/-! ## Texts on several lines -/

/-- An end of line. -/
inductive LineEnd : List Char → Prop
  | feed : LineEnd ['\n']
  | returned : LineEnd ['\r', '\n']

/-- Blanks and ends of lines. -/
inductive Whites : List Char → Prop
  | nil : Whites []
  | space {c : Char} {cs : List Char} (hc : isSpace c = true) (h : Whites cs) : Whites (c :: cs)
  | lineEnd {e cs : List Char} (he : LineEnd e) (h : Whites cs) : Whites (e ++ cs)

/-- The parts of a text between three double quotes: what a part stands for, its characters, and
what stands after it. A backslash at the end of a line stands for nothing, with all blanks and ends
of lines after it. -/
inductive BasicPart : List Char → List Char → List Char → Prop
  | char {c : Char} {cs rest : List Char} (h : SpellsChar c cs) : BasicPart [c] cs rest
  | lineEnd {e rest : List Char} (he : LineEnd e) : BasicPart e e rest
  | fold {blanks e whites rest : List Char} (hblanks : ∀ c ∈ blanks, isSpace c = true)
      (he : LineEnd e) (hwhites : Whites whites) (hstop : Stops [' ', '\t', '\n', '\r'] rest) :
      BasicPart [] ('\\' :: (blanks ++ (e ++ whites))) rest

/-- The parts of a text between three single quotes. -/
inductive LiteralPart : List Char → List Char → List Char → Prop
  | char {c : Char} {rest : List Char} (h : isLiteral c = true) : LiteralPart [c] [c] rest
  | lineEnd {e rest : List Char} (he : LineEnd e) : LiteralPart e e rest

/-- The spellings of a text up to its three closing quotes. Up to two quotes may stand before each
part and after the last one. -/
inductive SpellsLines (quote : Char) (Part : List Char → List Char → List Char → Prop) :
    List Char → List Char → Prop
  | quotes {k : Nat} (hk : k ≤ 2) :
      SpellsLines quote Part (List.replicate k quote) (List.replicate k quote)
  | part {k : Nat} {s s' cs cs' : List Char} (hk : k ≤ 2) (head : Part s cs cs')
      (tail : SpellsLines quote Part s' cs') :
      SpellsLines quote Part (List.replicate k quote ++ (s ++ s'))
        (List.replicate k quote ++ (cs ++ cs'))

/-! ### Closing quotes -/

section

variable {quote : Char} {k : Nat} {sofar rest : List Char}

theorem takeWhile_quotes (hrest : rest.head? ≠ some quote) :
    (List.replicate k quote ++ rest).takeWhile (· == quote) = List.replicate k quote := by
  have hall : ∀ c ∈ List.replicate k quote, (c == quote) = true :=
    fun c hc => beq_iff_eq.mpr (List.eq_of_mem_replicate hc)
  rw [List.takeWhile_append_of_pos hall]
  cases rest with
  | nil => simp
  | cons c rest =>
    have hc : c ≠ quote := fun he => hrest (congrArg some he)
    simp [hc]

theorem closing?_eq_none (hk : k ≤ 2) (hrest : rest.head? ≠ some quote) :
    closing? quote sofar (List.replicate k quote ++ rest) = none := by
  rw [closing?, takeWhile_quotes hrest, List.length_replicate, if_pos (by omega)]

theorem closing?_cons_eq_none {c : Char} (hc : c ≠ quote) :
    closing? quote sofar (c :: rest) = none :=
  closing?_eq_none (Nat.zero_le 2) fun he => hc (Option.some.inj he)

theorem closing?_quotes (hk : k ≤ 2) (hrest : rest.head? ≠ some quote) :
    closing? quote sofar (List.replicate k quote ++ quote :: quote :: quote :: rest) =
      some (String.ofList (sofar.reverse ++ List.replicate k quote), rest) := by
  have hrun : List.replicate k quote ++ quote :: quote :: quote :: rest =
      List.replicate (k + 3) quote ++ rest := by
    rw [← List.replicate_append_replicate, List.append_assoc]
    rfl
  have hkept : min (k + 3 - 3) 2 = k := by omega
  rw [hrun, closing?, takeWhile_quotes hrest, List.length_replicate, if_neg (by omega), hkept]
  dsimp only
  rw [List.drop_left' List.length_replicate, finish, List.reverse_append, List.reverse_replicate]

end

/-! ### Reading lines -/

/-- A reader takes the parts of a text one by one, and stops at its closing quotes. -/
structure ReadsLines (quote : Char) (Part : List Char → List Char → List Char → Prop)
    (read : Nat → List Char → List Char → Option (String × List Char)) : Prop where
  head : ∀ {s cs rest}, Part s cs rest → ∃ c tail, cs = c :: tail ∧ c ≠ quote
  closed : ∀ {fuel sofar cs result}, closing? quote sofar cs = some result →
    read (fuel + 1) sofar cs = some result
  quoted : ∀ {fuel sofar rest}, closing? quote sofar (quote :: rest) = none →
    read (fuel + 1) sofar (quote :: rest) = read fuel (quote :: sofar) rest
  part : ∀ {fuel s cs rest sofar after}, Part s cs rest →
    read (fuel + 1) sofar (cs ++ (rest ++ quote :: after)) =
      read fuel (s.reverse ++ sofar) (rest ++ quote :: after)

namespace ReadsLines

variable {quote : Char} {Part : List Char → List Char → List Char → Prop}
  {read : Nat → List Char → List Char → Option (String × List Char)}

/-- Up to two quotes in a row belong to the text. -/
theorem quotes (hread : ReadsLines quote Part read) {k : Nat} (hk : k ≤ 2) {rest : List Char}
    (hrest : rest.head? ≠ some quote) (fuel : Nat) (sofar : List Char) :
    read (fuel + k) sofar (List.replicate k quote ++ rest) =
      read fuel (List.replicate k quote ++ sofar) rest := by
  induction k generalizing sofar with
  | zero => rfl
  | succ k ih =>
    have hopen : closing? quote sofar (quote :: (List.replicate k quote ++ rest)) = none :=
      closing?_eq_none hk hrest
    rw [List.replicate_succ, List.cons_append, ← Nat.add_assoc, hread.quoted hopen,
      ih (by omega), List.append_cons, ← List.replicate_succ', List.replicate_succ]

theorem append (hread : ReadsLines quote Part read) {s cs : List Char}
    (h : SpellsLines quote Part s cs) {fuel : Nat} (hfuel : cs.length < fuel) (sofar : List Char)
    {rest : List Char} (hrest : rest.head? ≠ some quote) :
    read fuel sofar (cs ++ quote :: quote :: quote :: rest) =
      some (String.ofList (sofar.reverse ++ s), rest) := by
  induction h generalizing fuel sofar with
  | quotes hk =>
    obtain ⟨fuel, rfl⟩ := Nat.exists_eq_add_one_of_ne_zero (Nat.ne_zero_of_lt hfuel)
    exact hread.closed (closing?_quotes hk hrest)
  | @part k s s' cs cs' hk head tail ih =>
    -- The quotes in front of a part do not close the text, as the part starts with no quote.
    obtain ⟨c, before, rfl, hc⟩ := hread.head head
    rw [List.length_append, List.length_replicate, List.length_append, List.length_cons] at hfuel
    obtain ⟨fuel, rfl⟩ : ∃ fuel', fuel = fuel' + 1 + k := ⟨fuel - 1 - k, by omega⟩
    have hhead : (c :: before ++ cs' ++ quote :: quote :: quote :: rest).head? ≠ some quote :=
      fun he => hc (Option.some.inj he)
    rw [List.append_assoc, hread.quotes hk hhead, List.append_assoc, hread.part head,
      ih (by omega)]
    simp

end ReadsLines

theorem SpellsChar.exists_cons {c : Char} {cs : List Char} (h : SpellsChar c cs) :
    ∃ d tail, cs = d :: tail ∧ d ≠ '"' := by
  cases h with
  | plain hquote => exact ⟨c, [], rfl, hquote⟩
  | escape => exact ⟨'\\', _, rfl, by decide⟩

theorem endOfLine?_append {e : List Char} (h : LineEnd e) (rest : List Char) :
    endOfLine? (e ++ rest) = some rest := by
  cases h <;> rfl

theorem endOfLine?_eq_none {cs : List Char} (h : Stops ['\n', '\r'] cs) : endOfLine? cs = none := by
  unfold endOfLine?
  split
  · exact absurd rfl (h.head?_ne (by decide))
  · exact absurd rfl (h.head?_ne (by decide))
  · rfl

theorem skipLines_append {whites rest : List Char} (h : Whites whites)
    (hstop : Stops [' ', '\t', '\n', '\r'] rest) :
    skipLines (whites ++ rest) = rest := by
  induction h with
  | nil =>
    rw [List.nil_append]
    unfold skipLines
    split
    · exact absurd (hstop _ rfl) (by decide)
    · exact absurd (hstop _ rfl) (by decide)
    · exact absurd (hstop _ rfl) (by decide)
    · exact absurd (hstop _ rfl) (by decide)
    · rfl
  | space hc _ ih =>
    simp only [isSpace, Bool.or_eq_true, beq_iff_eq] at hc
    rcases hc with rfl | rfl <;> rw [List.cons_append, skipLines, ih]
  | lineEnd he _ ih => cases he <;> simp only [List.cons_append, List.nil_append, skipLines, ih]

/-- A letter of an escape is no blank and ends no line. -/
theorem SpellsEscape.endOfLine?_append {c : Char} {cs : List Char} (h : SpellsEscape c cs)
    (rest : List Char) : endOfLine? ((cs ++ rest).dropWhile isSpace) = none := by
  have hletter : ∀ {letter : Char} (tail : List Char),
      isSpace letter = false ∧ letter ∉ ['\n', '\r'] →
      endOfLine? ((letter :: tail).dropWhile isSpace) = none := by
    intro letter tail ⟨hspace, hstop⟩
    rw [List.dropWhile_cons_of_neg (by simp [hspace])]
    exact endOfLine?_eq_none (stops_cons.mpr hstop)
  cases h with
  | letter h =>
    have hall : ∀ pair ∈ escapeLetters, isSpace pair.1 = false ∧ pair.1 ∉ ['\n', '\r'] := by
      decide
    exact hletter _ (hall _ h)
  | number hwidth =>
    have hall : ∀ pair ∈ escapeWidths, isSpace pair.1 = false ∧ pair.1 ∉ ['\n', '\r'] := by
      decide
    exact hletter _ (hall _ hwidth)

theorem BasicPart.exists_cons {s cs rest : List Char} (h : BasicPart s cs rest) :
    ∃ c tail, cs = c :: tail ∧ c ≠ '"' := by
  cases h with
  | char h => exact h.exists_cons
  | lineEnd he => cases he <;> exact ⟨_, _, rfl, by decide⟩
  | fold => exact ⟨_, _, rfl, by decide⟩

theorem LiteralPart.exists_cons {s cs rest : List Char} (h : LiteralPart s cs rest) :
    ∃ c tail, cs = c :: tail ∧ c ≠ '\'' := by
  cases h with
  | char h =>
    refine ⟨_, _, rfl, ?_⟩
    rintro rfl
    cases h
  | lineEnd he => cases he <;> exact ⟨_, _, rfl, by decide⟩

/-- A character that is no backslash and closes nothing is read as itself. -/
theorem basicLines?_cons {c : Char} (hc : c = '\n' ∨ isPrintable c = true) (hslash : c ≠ '\\')
    {sofar rest : List Char} (hopen : closing? '"' sofar (c :: rest) = none) (fuel : Nat) :
    basicLines? (fuel + 1) sofar (c :: rest) = basicLines? fuel (c :: sofar) rest := by
  have hreturn : c ≠ '\r' := by
    rintro rfl
    revert hc
    decide
  simp only [basicLines?, hopen]
  split
  · next h => cases h
  · next h => cases h
  · next h => exact absurd (List.cons.inj h).1 hslash
  · next h => exact absurd (List.cons.inj h).1 hreturn
  · next h =>
    obtain ⟨rfl, rfl⟩ := List.cons.inj h
    exact if_pos hc

/-- What spells a character is read as that character, over several lines as on one. -/
theorem basicLines?_append_of_spellsChar {c : Char} {cs : List Char} (h : SpellsChar c cs)
    (fuel : Nat) (sofar rest : List Char) :
    basicLines? (fuel + 1) sofar (cs ++ rest) = basicLines? fuel (c :: sofar) rest := by
  cases h with
  | plain hquote hslash hprint =>
    exact basicLines?_cons (.inr hprint) hslash (closing?_cons_eq_none hquote) fuel
  | @escape cs h =>
    have hopen : closing? '"' sofar ('\\' :: (cs ++ rest)) = none :=
      closing?_cons_eq_none (by decide)
    simp only [List.cons_append, basicLines?, hopen, h.endOfLine?_append, escape?_append h]

/-- A line that ends with a backslash is folded into the next one. -/
theorem basicLines?_fold {blanks e whites rest : List Char}
    (hblanks : ∀ c ∈ blanks, isSpace c = true) (he : LineEnd e) (hwhites : Whites whites)
    (hstop : Stops [' ', '\t', '\n', '\r'] rest) (fuel : Nat) (sofar : List Char) :
    basicLines? (fuel + 1) sofar ('\\' :: (blanks ++ (e ++ (whites ++ rest)))) =
      basicLines? fuel sofar rest := by
  have hopen : closing? '"' sofar ('\\' :: (blanks ++ (e ++ (whites ++ rest)))) = none :=
    closing?_cons_eq_none (by decide)
  have hend : endOfLine? ((blanks ++ (e ++ (whites ++ rest))).dropWhile isSpace) =
      some (whites ++ rest) := by
    rw [List.dropWhile_append_of_pos hblanks]
    cases he <;> rfl
  simp only [basicLines?, hopen, hend, skipLines_append hwhites hstop]

/-- The reader of texts between three double quotes takes them part by part. -/
theorem readsLines_basic : ReadsLines '"' BasicPart basicLines? where
  head h := h.exists_cons
  closed h := by simp only [basicLines?, h]
  quoted h := basicLines?_cons (.inr rfl) (by decide) h _
  part h := by
    cases h with
    | char h => exact basicLines?_append_of_spellsChar h _ _ _
    | lineEnd he =>
      cases he with
      | feed => exact basicLines?_cons (.inl rfl) (by decide) (closing?_cons_eq_none (by decide)) _
      | returned =>
        have hopen : ∀ sofar rest, closing? '"' sofar ('\r' :: rest) = none :=
          fun _ _ => closing?_cons_eq_none (by decide)
        simp only [List.cons_append, basicLines?, hopen]
        rfl
    | fold hblanks he hwhites hstop =>
      rw [List.cons_append, List.append_assoc, List.append_assoc]
      exact basicLines?_fold hblanks he hwhites (hstop.append (stops_cons.mpr (by decide))) _ _

/-- A character that closes nothing is read as itself. -/
theorem literalLines?_cons {c : Char} (hc : c = '\n' ∨ isPrintable c = true)
    {sofar rest : List Char} (hopen : closing? '\'' sofar (c :: rest) = none) (fuel : Nat) :
    literalLines? (fuel + 1) sofar (c :: rest) = literalLines? fuel (c :: sofar) rest := by
  have hreturn : c ≠ '\r' := by
    rintro rfl
    revert hc
    decide
  simp only [literalLines?, hopen]
  split
  · next h => cases h
  · next h => cases h
  · next h => exact absurd (List.cons.inj h).1 hreturn
  · next h =>
    obtain ⟨rfl, rfl⟩ := List.cons.inj h
    exact if_pos hc

/-- The reader of texts between three single quotes takes them part by part. -/
theorem readsLines_literal : ReadsLines '\'' LiteralPart literalLines? where
  head h := h.exists_cons
  closed h := by simp only [literalLines?, h]
  quoted h := literalLines?_cons (.inr rfl) h _
  part h := by
    cases h with
    | char h =>
      obtain ⟨hprint, hquote⟩ := by simpa only [isLiteral, Bool.and_eq_true, bne_iff_ne] using h
      exact literalLines?_cons (.inr hprint) (closing?_cons_eq_none hquote) _
    | lineEnd he =>
      cases he with
      | feed => exact literalLines?_cons (.inl rfl) (closing?_cons_eq_none (by decide)) _
      | returned =>
        have hopen : ∀ sofar rest, closing? '\'' sofar ('\r' :: rest) = none :=
          fun _ _ => closing?_cons_eq_none (by decide)
        simp only [List.cons_append, literalLines?, hopen]
        rfl

/-! ## Texts -/

/-- What may stand behind three opening quotes: an end of line, which does not count, or what does
not start with one. -/
inductive SpellsOpened : List Char → List Char → Prop
  | same {cs : List Char} (h : Stops ['\n', '\r'] cs) : SpellsOpened cs cs
  | below {e cs : List Char} (he : LineEnd e) : SpellsOpened cs (e ++ cs)

/-- The spellings of a text, with its quotes. -/
inductive SpellsText : String → List Char → Prop
  | quoted {s : String} {cs : List Char} (h : SpellsQuoted s cs) : SpellsText s cs
  | basicLines {s : String} {cs cs' : List Char} (h : SpellsLines '"' BasicPart s.toList cs)
      (hopened : SpellsOpened cs cs') :
      SpellsText s ('"' :: '"' :: '"' :: (cs' ++ ['"', '"', '"']))
  | literalLines {s : String} {cs cs' : List Char}
      (h : SpellsLines '\'' LiteralPart s.toList cs) (hopened : SpellsOpened cs cs') :
      SpellsText s ('\'' :: '\'' :: '\'' :: (cs' ++ ['\'', '\'', '\'']))

theorem skipFirstLine_append {quote : Char} (hquote : quote ∉ ['\n', '\r']) {cs cs' : List Char}
    (h : SpellsOpened cs cs') (rest : List Char) :
    skipFirstLine (cs' ++ quote :: rest) = cs ++ quote :: rest := by
  unfold skipFirstLine
  cases h with
  | same h =>
    rw [endOfLine?_eq_none (h.append (stops_cons.mpr hquote))]
    rfl
  | below he =>
    rw [List.append_assoc, endOfLine?_append he]
    rfl

theorem SpellsOpened.length_le {cs cs' : List Char} (h : SpellsOpened cs cs') :
    cs.length ≤ cs'.length := by
  cases h with
  | same => exact Nat.le_refl _
  | below => exact List.length_append ▸ Nat.le_add_left _ _

theorem SpellsChars.head?_ne {s cs : List Char} (h : SpellsChars s cs) : cs.head? ≠ some '"' := by
  cases h with
  | nil => simp
  | cons head tail =>
    obtain ⟨d, before, rfl, hd⟩ := head.exists_cons
    exact fun he => hd (Option.some.inj he)

/-- Two quotes in a row that close a text on one line do not start one on several lines. -/
theorem quotedLines?_of_head?_ne {quote : Char} {body rest : List Char}
    (hbody : body.head? ≠ some quote) (hrest : rest.head? ≠ some quote) (fuel : Nat) :
    quotedLines? fuel (quote :: (body ++ quote :: rest)) =
      quoted? fuel (quote :: (body ++ quote :: rest)) := by
  have hthree : ∀ after, quote :: (body ++ quote :: rest) ≠ quote :: quote :: quote :: after := by
    intro after he
    have htail := (List.cons.inj he).2
    cases body with
    | nil => exact hrest (congrArg List.head? (List.cons.inj htail).2)
    | cons c body => exact hbody (congrArg List.head? htail)
  unfold quotedLines?
  split
  · next he =>
    obtain rfl := (List.cons.inj he).1
    exact absurd he (hthree _)
  · next he =>
    obtain rfl := (List.cons.inj he).1
    exact absurd he (hthree _)
  · rfl

theorem quotedLines?_quoted {s : String} {cs : List Char} (h : SpellsQuoted s cs) (fuel : Nat)
    {rest : List Char} (hrest : Stops ['"', '\''] rest) :
    quotedLines? fuel (cs ++ rest) = quoted? fuel (cs ++ rest) := by
  cases h with
  | basic h =>
    rw [List.cons_append, List.append_assoc, List.singleton_append]
    exact quotedLines?_of_head?_ne h.head?_ne (hrest.head?_ne (by decide)) fuel
  | literal h =>
    rw [List.cons_append, List.append_assoc, List.singleton_append]
    refine quotedLines?_of_head?_ne (fun he => ?_) (hrest.head?_ne (by decide)) fuel
    have hquote := h '\'' (List.mem_of_mem_head? he)
    cases hquote

/-- **A spelled text is read**, unless one more quote follows. -/
theorem quotedLines?_append {s : String} {cs : List Char} (h : SpellsText s cs) {fuel : Nat}
    (hfuel : cs.length ≤ fuel) {rest : List Char} (hrest : Stops ['"', '\''] rest) :
    quotedLines? fuel (cs ++ rest) = some (s, rest) := by
  cases h with
  | quoted h => rw [quotedLines?_quoted h fuel hrest, quoted?_append h hfuel]
  | @basicLines cs cs' h hopened =>
    have hlength := hopened.length_le
    simp only [List.length_cons, List.length_append] at hfuel
    simp only [List.cons_append, List.append_assoc, List.nil_append, quotedLines?]
    rw [skipFirstLine_append (by decide) hopened,
      readsLines_basic.append h (by omega) [] (hrest.head?_ne (by decide)), List.reverse_nil,
      List.nil_append, String.ofList_toList]
  | @literalLines cs cs' h hopened =>
    have hlength := hopened.length_le
    simp only [List.length_cons, List.length_append] at hfuel
    simp only [List.cons_append, List.append_assoc, List.nil_append, quotedLines?]
    rw [skipFirstLine_append (by decide) hopened,
      readsLines_literal.append h (by omega) [] (hrest.head?_ne (by decide)), List.reverse_nil,
      List.nil_append, String.ofList_toList]

end ImportAtlas.Toml
