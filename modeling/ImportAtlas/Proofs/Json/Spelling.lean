import ImportAtlas.Json.Reading
import Mathlib.Algebra.Group.Nat.Defs

/-!
# How texts and numbers are spelled in JSON

A character may be spelled in several ways between quotes: as itself, by an escape of one letter, by
the four digits of its number, or by those of a pair of halves if its number needs more than four. A
number has a sign, whole digits, a fraction and an exponent, of which only the whole digits have to be
there. Whatever is spelled so is read, up to where the spelling ends: a text ends with its quote, a
number where no digit, point or exponent can follow.

## Main definitions

* `SpellsText`: the spellings of a text, with its quotes
* `SpellsNumeral`: the spellings of a number
* `Blanks`: texts of blanks
* `Stops`: what may stand after a value

## Main results

* `readName_append`: a spelled text is read
* `readNumeral_append`: a spelled number is read, if it stops
-/

namespace ImportAtlas.Json

open Codec (ReadError Scalar Document)

/-! ## Blanks -/

/-- Texts of blanks. -/
def Blanks (cs : List Char) : Prop := ∀ c ∈ cs, c ∈ [' ', '\n', '\t', '\r']

/-- What may stand after a value: nothing, a blank, a comma or a closing bracket. -/
def Stops (rest : List Char) : Prop :=
  ∀ c, rest.head? = some c → c ∈ [' ', '\n', '\t', '\r'] ∨ c ∈ [',', ']', '}']

theorem isBlank_iff (c : Char) : isBlank c = true ↔ c ∈ [' ', '\n', '\t', '\r'] := by
  simp [isBlank, or_assoc]

theorem skipBlanks_append {blanks : List Char} (h : Blanks blanks) (rest : List Char) :
    skipBlanks (blanks ++ rest) = skipBlanks rest := by
  unfold skipBlanks
  exact List.dropWhile_append_of_pos fun c hc => (isBlank_iff c).mpr (h c hc)

theorem skipBlanks_of_blanks {blanks : List Char} (h : Blanks blanks) : skipBlanks blanks = [] := by
  have hskip := skipBlanks_append h []
  rwa [List.append_nil] at hskip

theorem skipBlanks_cons {c : Char} (h : isBlank c = false) (rest : List Char) :
    skipBlanks (c :: rest) = c :: rest :=
  List.dropWhile_cons_of_neg (by simp [h])

theorem Blanks.stops_append {blanks rest : List Char} (h : Blanks blanks) (hrest : Stops rest) :
    Stops (blanks ++ rest) := by
  cases blanks with
  | nil => exact hrest
  | cons blank blanks =>
    intro c hc
    obtain rfl := Option.some.inj hc
    exact .inl (h blank List.mem_cons_self)

/-! ## Texts -/

/-- The four digits of a number in base sixteen. -/
inductive SpellsHex : Nat → List Char → Prop
  | digits {a b c d : Char} {w x y z : Nat} (ha : Text.hexValue? a = some w)
      (hb : Text.hexValue? b = some x) (hc : Text.hexValue? c = some y)
      (hd : Text.hexValue? d = some z) :
      SpellsHex (w * 16 ^ 3 + x * 16 ^ 2 + y * 16 + z) [a, b, c, d]

/-- The characters that stand for one character between quotes. -/
inductive SpellsChar : Char → List Char → Prop
  | plain {c : Char} (hquote : c ≠ '"') (hslash : c ≠ '\\') (hcontrol : 0x20 ≤ c.toNat) :
      SpellsChar c [c]
  | quote : SpellsChar '"' ['\\', '"']
  | backslash : SpellsChar '\\' ['\\', '\\']
  | slash : SpellsChar '/' ['\\', '/']
  | backspace : SpellsChar '\x08' ['\\', 'b']
  | formFeed : SpellsChar '\x0c' ['\\', 'f']
  | newline : SpellsChar '\n' ['\\', 'n']
  | carriageReturn : SpellsChar '\r' ['\\', 'r']
  | tab : SpellsChar '\t' ['\\', 't']
  | digits {c : Char} {hex : List Char} (h : SpellsHex c.toNat hex) :
      SpellsChar c ('\\' :: 'u' :: hex)
  /-- Two halves for a character whose number needs more than four digits. -/
  | halves {c : Char} {high low : Nat} {hex hex' : List Char} (h : SpellsHex high hex)
      (h' : SpellsHex low hex') (hhigh : 0xD800 ≤ high ∧ high ≤ 0xDBFF)
      (hlow : 0xDC00 ≤ low ∧ low ≤ 0xDFFF)
      (hc : c.toNat = 0x10000 + (high - 0xD800) * 0x400 + (low - 0xDC00)) :
      SpellsChar c ('\\' :: 'u' :: (hex ++ '\\' :: 'u' :: hex'))

/-- The spellings of characters, one after the other. -/
inductive SpellsChars : List Char → List Char → Prop
  | nil : SpellsChars [] []
  | cons {c : Char} {s cs cs' : List Char} (head : SpellsChar c cs) (tail : SpellsChars s cs') :
      SpellsChars (c :: s) (cs ++ cs')

/-- The spellings of a text, with its quotes. -/
inductive SpellsText : String → List Char → Prop
  | quoted {s : String} {cs : List Char} (h : SpellsChars s.toList cs) :
      SpellsText s ('"' :: (cs ++ ['"']))

theorem readHex_append {n : Nat} {hex : List Char} (h : SpellsHex n hex) (rest : List Char) :
    readHex (hex ++ rest) = .ok (n, rest) := by
  cases h with
  | digits ha hb hc hd =>
    simp only [List.cons_append, List.nil_append, readHex, ha, hb, hc, hd]
    congr 2
    omega

theorem toNat_not_half (c : Char) : isLowHalf c.toNat = false ∧ isHighHalf c.toNat = false := by
  have hvalid : c.toNat < 0xD800 ∨ 0xDFFF < c.toNat ∧ c.toNat < 0x110000 := c.valid
  unfold isLowHalf isHighHalf
  simp only [Bool.and_eq_false_iff, decide_eq_false_iff_not]
  omega

theorem readCodePoint_digits {c : Char} {hex : List Char} (h : SpellsHex c.toNat hex)
    (rest : List Char) : readCodePoint (hex ++ rest) = .ok (c, rest) := by
  obtain ⟨hlow, hhigh⟩ := toNat_not_half c
  simp only [readCodePoint, readHex_append h, bind, Except.bind, hlow, hhigh, Char.ofNat_toNat]
  rfl

theorem readCodePoint_halves {c : Char} {high low : Nat} {hex hex' : List Char}
    (h : SpellsHex high hex) (h' : SpellsHex low hex') (hhigh : 0xD800 ≤ high ∧ high ≤ 0xDBFF)
    (hlow : 0xDC00 ≤ low ∧ low ≤ 0xDFFF)
    (hc : c.toNat = 0x10000 + (high - 0xD800) * 0x400 + (low - 0xDC00)) (rest : List Char) :
    readCodePoint (hex ++ '\\' :: 'u' :: (hex' ++ rest)) = .ok (c, rest) := by
  have hnot : isLowHalf high = false := by
    simp only [isLowHalf, Bool.and_eq_false_iff, decide_eq_false_iff_not]
    omega
  have hfirst : isHighHalf high = true := by
    simpa only [isHighHalf, Bool.and_eq_true, decide_eq_true_eq] using hhigh
  have hsecond : isLowHalf low = true := by
    simpa only [isLowHalf, Bool.and_eq_true, decide_eq_true_eq] using hlow
  simp only [readCodePoint, readHex_append h, bind, Except.bind, hnot, hfirst, readLowHalf,
    readHex_append h', hsecond, ← hc, Char.ofNat_toNat]
  rfl

/-- What spells a character is read as that character. -/
theorem readText_append_of_spellsChar {c : Char} {cs : List Char} (h : SpellsChar c cs)
    (fuel : Nat) (sofar rest : List Char) :
    readText (fuel + 1) sofar (cs ++ rest) = readText fuel (c :: sofar) rest := by
  cases h with
  | plain hquote hslash hcontrol =>
    rw [List.singleton_append, readText, if_neg (Nat.not_lt.mpr hcontrol)]
    · exact hquote
    · exact hslash
  | digits h =>
    simp only [List.cons_append, readText, readEscape, readCodePoint_digits h rest]
  | halves h h' hhigh hlow hc =>
    simp only [List.cons_append, List.append_assoc, readText, readEscape,
      readCodePoint_halves h h' hhigh hlow hc rest]
  | _ => rfl

theorem SpellsChar.length_pos {c : Char} {cs : List Char} (h : SpellsChar c cs) :
    0 < cs.length := by
  cases h <;> exact Nat.zero_lt_succ _

theorem readText_append {s cs : List Char} (h : SpellsChars s cs) {fuel : Nat}
    (hfuel : cs.length < fuel) (sofar rest : List Char) :
    readText fuel sofar (cs ++ '"' :: rest) =
      .ok (String.ofList (sofar.reverse ++ s), rest) := by
  induction h generalizing fuel sofar with
  | nil =>
    obtain ⟨fuel, rfl⟩ := Nat.exists_eq_add_one_of_ne_zero (Nat.ne_zero_of_lt hfuel)
    rw [List.append_nil]
    rfl
  | @cons c s cs cs' head tail ih =>
    obtain ⟨fuel, rfl⟩ := Nat.exists_eq_add_one_of_ne_zero (Nat.ne_zero_of_lt hfuel)
    have hpos := head.length_pos
    rw [List.length_append] at hfuel
    rw [List.append_assoc, readText_append_of_spellsChar head, ih (by omega),
      List.reverse_cons, List.append_assoc, List.singleton_append]

/-- **A spelled text is read**, whatever stands after it. -/
theorem readName_append {s : String} {cs : List Char} (h : SpellsText s cs) {fuel : Nat}
    (hfuel : cs.length ≤ fuel) (rest : List Char) :
    readName fuel (cs ++ rest) = (.ofText s, some rest) := by
  cases h with
  | @quoted cs h =>
    rw [List.length_cons, List.length_append] at hfuel
    rw [List.cons_append, List.append_assoc, List.singleton_append]
    rw [readName, textDocument, readText_append h (by omega), List.reverse_nil, List.nil_append,
      String.ofList_toList]
    rfl

theorem SpellsText.exists_cons {s : String} {cs : List Char} (h : SpellsText s cs) :
    ∃ cs', cs = '"' :: cs' := by
  cases h
  exact ⟨_, rfl⟩

/-! ## Numbers -/

/-- One or more digits. -/
def Digits (cs : List Char) : Prop := cs ≠ [] ∧ ∀ c ∈ cs, Text.isDigit c = true

/-- The digits before the point: a zero, or digits that start with another one. -/
inductive SpellsWhole : List Char → Prop
  | zero : SpellsWhole ['0']
  | digits {cs : List Char} (h : Digits cs) (hzero : cs.head? ≠ some '0') : SpellsWhole cs

/-- The spellings of the digits after the point. -/
inductive SpellsFraction : List Char → List Char → Prop
  | none : SpellsFraction [] []
  | point {digits : List Char} (h : Digits digits) : SpellsFraction digits ('.' :: digits)

/-- The spellings of an exponent. -/
inductive SpellsExponent : Option (Bool × List Char) → List Char → Prop
  | none : SpellsExponent none []
  | bare {e : Char} {digits : List Char} (he : e ∈ ['e', 'E']) (h : Digits digits) :
      SpellsExponent (some (false, digits)) (e :: digits)
  | up {e : Char} {digits : List Char} (he : e ∈ ['e', 'E']) (h : Digits digits) :
      SpellsExponent (some (false, digits)) (e :: '+' :: digits)
  | down {e : Char} {digits : List Char} (he : e ∈ ['e', 'E']) (h : Digits digits) :
      SpellsExponent (some (true, digits)) (e :: '-' :: digits)

/-- The spellings of a number. -/
inductive SpellsNumeral : Numeral → List Char → Prop
  | parts {negative : Bool} {whole fraction cs cs' : List Char}
      {exponent : Option (Bool × List Char)} (hwhole : SpellsWhole whole)
      (hfraction : SpellsFraction fraction cs) (hexponent : SpellsExponent exponent cs') :
      SpellsNumeral ⟨negative, whole, fraction, exponent⟩
        ((if negative then ['-'] else []) ++ (whole ++ (cs ++ cs')))

/-- Digits end here. -/
def StopsDigits (rest : List Char) : Prop := ∀ c, rest.head? = some c → Text.isDigit c = false

theorem Stops.stopsDigits {rest : List Char} (h : Stops rest) : StopsDigits rest := by
  intro c hc
  have hc := h c hc
  simp only [List.mem_cons, List.not_mem_nil, or_false] at hc
  rcases hc with (rfl | rfl | rfl | rfl) | rfl | rfl | rfl <;> rfl

theorem takeWhile_digits {digits rest : List Char} (h : ∀ c ∈ digits, Text.isDigit c = true)
    (hrest : StopsDigits rest) :
    (digits ++ rest).takeWhile Text.isDigit = digits ∧
      (digits ++ rest).dropWhile Text.isDigit = rest := by
  rw [List.takeWhile_append_of_pos h, List.dropWhile_append_of_pos h]
  cases rest with
  | nil => simp
  | cons c rest => simp [hrest c rfl]

theorem readDigits_append {digits rest : List Char} (h : Digits digits)
    (hrest : StopsDigits rest) : readDigits (digits ++ rest) = .ok (digits, rest) := by
  obtain ⟨hne, hdigits⟩ := h
  obtain ⟨htake, hdrop⟩ := takeWhile_digits hdigits hrest
  cases digits with
  | nil => exact absurd rfl hne
  | cons c digits =>
    rw [List.cons_append] at htake hdrop ⊢
    simp only [readDigits, hdigits c List.mem_cons_self, if_pos, htake, hdrop]

theorem readWhole_append {whole rest : List Char} (h : SpellsWhole whole)
    (hrest : StopsDigits rest) : readWhole (whole ++ rest) = .ok (whole, rest) := by
  cases h with
  | zero =>
    have hhead : rest.head?.any Text.isDigit = false := by
      cases rest with
      | nil => rfl
      | cons c rest => exact hrest c rfl
    simp [readWhole, hhead]
  | digits h hzero =>
    obtain ⟨hne, hdigits⟩ := h
    cases whole with
    | nil => exact absurd rfl hne
    | cons c digits =>
      have hc : c ≠ '0' := fun he => hzero (congrArg some he)
      obtain ⟨htake, hdrop⟩ :=
        takeWhile_digits (fun d hd => hdigits d (List.mem_cons_of_mem c hd)) hrest
      rw [List.cons_append, readWhole, if_pos (hdigits c List.mem_cons_self), htake, hdrop]
      exact hc

theorem readFraction_append {digits cs rest : List Char} (h : SpellsFraction digits cs)
    (hrest : StopsDigits rest) (hpoint : rest.head? ≠ some '.') :
    readFraction (cs ++ rest) = .ok (digits, rest) := by
  cases h with
  | none =>
    rw [List.nil_append, readFraction]
    rintro rest' rfl
    exact hpoint rfl
  | point h => exact readDigits_append h hrest

theorem Digits.head?_ne {digits : List Char} (h : Digits digits) (rest : List Char) {c : Char}
    (hc : Text.isDigit c = false) : (digits ++ rest).head? ≠ some c := by
  obtain ⟨hne, hdigits⟩ := h
  cases digits with
  | nil => exact absurd rfl hne
  | cons d digits =>
    intro he
    obtain rfl := Option.some.inj he
    rw [hdigits d List.mem_cons_self] at hc
    cases hc

theorem readPower_bare {digits rest : List Char} (h : Digits digits) (hrest : StopsDigits rest) :
    readPower (digits ++ rest) = .ok ((false, digits), rest) := by
  have hminus := h.head?_ne rest (show Text.isDigit '-' = false from rfl)
  have hplus := h.head?_ne rest (show Text.isDigit '+' = false from rfl)
  have hread := readDigits_append h hrest
  generalize digits ++ rest = cs at hminus hplus hread
  unfold readPower
  split
  · exact absurd rfl hminus
  · split
    · exact absurd rfl hplus
    · rw [hread]
      rfl

theorem readPower_up {digits rest : List Char} (h : Digits digits) (hrest : StopsDigits rest) :
    readPower ('+' :: (digits ++ rest)) = .ok ((false, digits), rest) := by
  change (readDigits (digits ++ rest) >>= _) = _
  rw [readDigits_append h hrest]
  rfl

theorem readPower_down {digits rest : List Char} (h : Digits digits) (hrest : StopsDigits rest) :
    readPower ('-' :: (digits ++ rest)) = .ok ((true, digits), rest) := by
  rw [readPower, readDigits_append h hrest]
  rfl

theorem readExponent_cons {e : Char} (he : e ∈ ['e', 'E']) {exponent : Bool × List Char}
    {cs rest : List Char} (h : readPower cs = .ok (exponent, rest)) :
    readExponent (e :: cs) = .ok (some exponent, rest) := by
  have he : e = 'e' ∨ e = 'E' := by simpa using he
  rw [readExponent, if_pos he, h]
  rfl

theorem readExponent_append {exponent : Option (Bool × List Char)} {cs rest : List Char}
    (h : SpellsExponent exponent cs) (hrest : Stops rest) :
    readExponent (cs ++ rest) = .ok (exponent, rest) := by
  have hdigits := hrest.stopsDigits
  cases h with
  | none =>
    cases rest with
    | nil => rfl
    | cons c rest =>
      rw [List.nil_append, readExponent, if_neg]
      rintro (rfl | rfl)
      · have hstop := hrest 'e' rfl
        simp at hstop
      · have hstop := hrest 'E' rfl
        simp at hstop
  | bare he h => exact readExponent_cons he (readPower_bare h hdigits)
  | up he h => exact readExponent_cons he (readPower_up h hdigits)
  | down he h => exact readExponent_cons he (readPower_down h hdigits)

/-- What stands after the digits of the fraction: an exponent, or what stands after the number. -/
theorem SpellsExponent.head?_append {exponent : Option (Bool × List Char)} {cs rest : List Char}
    (h : SpellsExponent exponent cs) (hrest : Stops rest) :
    StopsDigits (cs ++ rest) ∧ (cs ++ rest).head? ≠ some '.' := by
  have hletter : ∀ {e : Char} (tail : List Char), e ∈ ['e', 'E'] →
      StopsDigits (e :: tail) ∧ (e :: tail).head? ≠ some '.' := by
    intro e tail he
    have he : e = 'e' ∨ e = 'E' := by simpa using he
    constructor
    · intro c hc
      obtain rfl := Option.some.inj hc
      rcases he with rfl | rfl <;> rfl
    · rcases he with rfl | rfl <;> simp
  cases h with
  | none =>
    refine ⟨hrest.stopsDigits, fun hpoint => ?_⟩
    have hstop := hrest '.' hpoint
    simp at hstop
  | bare he h => exact hletter _ he
  | up he h => exact hletter _ he
  | down he h => exact hletter _ he

theorem SpellsFraction.stopsDigits_append {digits cs rest : List Char}
    (h : SpellsFraction digits cs) (hrest : StopsDigits rest) : StopsDigits (cs ++ rest) := by
  cases h with
  | none => exact hrest
  | point h =>
    intro c hc
    obtain rfl := Option.some.inj hc
    rfl

theorem SpellsWhole.exists_cons {whole : List Char} (h : SpellsWhole whole) :
    ∃ c digits, whole = c :: digits ∧ Text.isDigit c = true := by
  cases h with
  | zero => exact ⟨'0', [], rfl, rfl⟩
  | digits h hzero =>
    obtain ⟨hne, hdigits⟩ := h
    cases whole with
    | nil => exact absurd rfl hne
    | cons c digits => exact ⟨c, digits, rfl, hdigits c List.mem_cons_self⟩

/-- A number starts with a sign or with a digit. -/
theorem SpellsNumeral.exists_cons {numeral : Numeral} {cs : List Char}
    (h : SpellsNumeral numeral cs) :
    ∃ c cs', cs = c :: cs' ∧ (c = '-' ∨ Text.isDigit c = true) := by
  cases h with
  | @parts negative whole fraction cs cs' exponent hwhole hfraction hexponent =>
    obtain ⟨c, digits, rfl, hc⟩ := hwhole.exists_cons
    cases negative with
    | true => exact ⟨'-', _, rfl, .inl rfl⟩
    | false => exact ⟨c, _, rfl, .inr hc⟩

theorem readNumeral_eq_ok {negative : Bool} {whole fraction cs cs' rest : List Char}
    {exponent : Option (Bool × List Char)} {text : List Char}
    (hnegative : (text.head? == some '-') = negative)
    (hwhole : readWhole (if negative then text.drop 1 else text) = .ok (whole, cs))
    (hfraction : readFraction cs = .ok (fraction, cs'))
    (hexponent : readExponent cs' = .ok (exponent, rest)) :
    readNumeral text = .ok (⟨negative, whole, fraction, exponent⟩, rest) := by
  unfold readNumeral
  simp only [hnegative, hwhole, bind, Except.bind, hfraction, hexponent]
  rfl

/-- **A spelled number is read**, if it stops. -/
theorem readNumeral_append {numeral : Numeral} {cs rest : List Char}
    (h : SpellsNumeral numeral cs) (hrest : Stops rest) :
    readNumeral (cs ++ rest) = .ok (numeral, rest) := by
  cases h with
  | @parts negative whole fraction cs cs' exponent hwhole hfraction hexponent =>
    obtain ⟨hstop, hpoint⟩ := hexponent.head?_append hrest
    have hread := readWhole_append hwhole (hfraction.stopsDigits_append hstop)
    have hread' := readFraction_append hfraction hstop hpoint
    have hread'' := readExponent_append hexponent hrest
    simp only [List.append_assoc]
    cases negative with
    | true => exact readNumeral_eq_ok rfl hread hread' hread''
    | false =>
      refine readNumeral_eq_ok ?_ hread hread' hread''
      obtain ⟨c, digits, rfl, hc⟩ := hwhole.exists_cons
      have hne : c ≠ '-' := by
        rintro rfl
        cases hc
      simpa using hne

end ImportAtlas.Json
