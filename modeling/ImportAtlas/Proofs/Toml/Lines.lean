import ImportAtlas.Proofs.Toml.Values

/-!
# How files are spelled in TOML, line by line

A file of settings has a line for each comment, each header and each entry, whose value may go on
over more lines. An entry belongs to the last header above it. From such a file its entries and its
sections are read.

## Main definitions

* `SpellsKey`: the spellings of a key
* `SpellsFile`: the files of comments, headers and entries

## Main results

* `sections?_append`: the entries and the sections of a file are read
-/

namespace ImportAtlas.Toml

open Codec (Document)
open Table (Entry Section)

/-! ## Keys -/

/-- The spellings of a key: its characters, if all of them may stand without quotes, or the key in
quotes. -/
inductive SpellsKey : String → List Char → Prop
  | bare {key : String} (hne : key.toList ≠ []) (h : ∀ c ∈ key.toList, isBare c = true) :
      SpellsKey key key.toList
  | quoted {key : String} {cs : List Char} (h : SpellsQuoted key cs) : SpellsKey key cs

theorem quoted?_of_isBare {c : Char} (h : isBare c = true) (fuel : Nat) (cs : List Char) :
    quoted? fuel (c :: cs) = none := by
  unfold quoted?
  split
  · next he =>
    obtain ⟨rfl, -⟩ := List.cons.inj he
    cases h
  · next he =>
    obtain ⟨rfl, -⟩ := List.cons.inj he
    cases h
  · rfl

theorem key?_append {key : String} {cs : List Char} (h : SpellsKey key cs) {fuel : Nat}
    (hfuel : cs.length ≤ fuel) {c : Char} (hc : isBare c = false) (rest : List Char) :
    key? fuel (cs ++ c :: rest) = some (key, c :: rest) := by
  cases h with
  | bare hne h =>
    have hquoted : quoted? fuel (key.toList ++ c :: rest) = none := by
      obtain ⟨d, cs, he⟩ := List.exists_cons_of_ne_nil hne
      rw [he] at h ⊢
      exact quoted?_of_isBare (h d List.mem_cons_self) fuel _
    rw [key?, hquoted]
    dsimp only
    rw [takeWhile_append_cons h hc, dropWhile_append_cons h hc, String.ofList_toList,
      if_neg (by simpa using hne)]
  | quoted h => rw [key?, quoted?_append h hfuel]

/-- What a key starts with is no blank, no bracket, and starts no comment. -/
theorem SpellsKey.exists_cons {key : String} {cs : List Char} (h : SpellsKey key cs) :
    ∃ c cs', cs = c :: cs' ∧ c ∉ [' ', '\t', '#', '\n', '\r', '['] := by
  cases h with
  | bare hne h =>
    obtain ⟨c, cs, he⟩ := List.exists_cons_of_ne_nil hne
    refine ⟨c, cs, he, fun hc => ?_⟩
    have hall : ∀ d ∈ [' ', '\t', '#', '\n', '\r', '['], isBare d = false :=
      eq_false_of_any_eq_false rfl
    rw [he, List.forall_mem_cons, hall c hc] at h
    cases h.1
  | quoted h => cases h <;> exact ⟨_, _, rfl, by decide⟩

/-- A single key is read, with the blanks after it. -/
theorem keys?_append {key : String} {cs : List Char} (h : SpellsKey key cs) {fuel : Nat}
    (hfuel : cs.length ≤ fuel) {c d : Char} (hc : isBare c = false) {rest left : List Char}
    (hleft : skipSpaces (c :: rest) = d :: left) (hd : d ≠ '.') (count : Nat) :
    keys? fuel (cs ++ c :: rest) (count + 1) = some ([key], d :: left) := by
  have hspaces : skipSpaces (cs ++ c :: rest) = cs ++ c :: rest := by
    obtain ⟨e, cs', rfl, he⟩ := h.exists_cons
    exact skipSpaces_append (List.forall_mem_nil _)
      ((stops_cons.mpr he : Stops _ (e :: (cs' ++ c :: rest))).mono (by decide))
  rw [keys?, hspaces, key?_append h hfuel hc]
  simp only [bind, Option.bind, hleft]
  split
  · next he => exact absurd (List.cons.inj he).1 hd
  · rfl

/-! ## Entries -/

/-- A value starts with no blank. -/
theorem Spells.exists_cons {document : Document} {cs : List Char} (h : Spells document cs) :
    ∃ c cs', cs = c :: cs' ∧ c ∉ [' ', '\t'] := by
  cases h with
  | text h =>
    obtain ⟨c, cs', rfl, hc⟩ := h.exists_cons
    refine ⟨c, cs', rfl, ?_⟩
    simp only [List.mem_cons, List.not_mem_nil, or_false] at hc
    rcases hc with rfl | rfl <;> decide
  | trueWord | falseWord | texts => exact ⟨_, _, rfl, by decide⟩
  | count h =>
    obtain ⟨c, cs', rfl, -⟩ := h.exists_cons
    refine ⟨c, cs', rfl, fun hc => ?_⟩
    have hends := h.endsScalar_eq_false List.mem_cons_self
    simp only [List.mem_cons, List.not_mem_nil, or_false] at hc
    rcases hc with rfl | rfl <;> cases hends

/-- The line of an entry without its end: the key, an equals sign between blanks, and the value. -/
def entryLine (key value : List Char) : List Char := key ++ ' ' :: '=' :: ' ' :: value

theorem entry?_append {key : String} {document : Document} {cs cs' : List Char}
    (hkey : SpellsKey key cs) (hvalue : Spells document cs') {fuel : Nat}
    (hfuel : (entryLine cs cs').length ≤ fuel) (rest : List Char) :
    entry? (fuel + 1) 0 skipSpaces (entryLine cs cs' ++ '\n' :: rest) =
      some (⟨[], key, document⟩, '\n' :: rest) := by
  simp only [entryLine, List.length_append, List.length_cons] at hfuel
  have hline : entryLine cs cs' ++ '\n' :: rest =
      cs ++ ' ' :: '=' :: ' ' :: (cs' ++ '\n' :: rest) := by
    simp only [entryLine, List.append_assoc, List.cons_append]
  have hequals : skipSpaces (' ' :: '=' :: ' ' :: (cs' ++ '\n' :: rest)) =
      '=' :: ' ' :: (cs' ++ '\n' :: rest) := rfl
  have hspaces : skipSpaces (' ' :: (cs' ++ '\n' :: rest)) = cs' ++ '\n' :: rest := by
    obtain ⟨c, cs', rfl, hc⟩ := hvalue.exists_cons
    exact skipSpaces_append (List.forall_mem_singleton.mpr rfl) (stops_cons.mpr hc)
  have hkeys : keys? fuel (entryLine cs cs' ++ '\n' :: rest) maxKeys =
      some ([key], '=' :: ' ' :: (cs' ++ '\n' :: rest)) := by
    rw [hline]
    exact keys?_append hkey (by omega) rfl hequals (by decide) 79
  have hread := value?_append hvalue (show cs'.length < fuel by omega) rest
  have hskip : skipSpaces ('=' :: ' ' :: (cs' ++ '\n' :: rest)) =
      '=' :: ' ' :: (cs' ++ '\n' :: rest) := rfl
  unfold entry?
  rw [hkeys]
  simp only [bind, Option.bind, hskip, mark?, if_true, hspaces, hread]
  rfl

/-! ## Files -/

/-- The line of a header without its end. -/
def headerLine (key : List Char) : List Char := '[' :: (key ++ [']'])

/-- The files that have a line for each comment, each header and each entry: the entries before the
first header, and the sections. -/
inductive SpellsFile : List Entry → List Section → List Char → Prop
  | nil : SpellsFile [] [] []
  | comment {note cs : List Char} {entries : List Entry} {sections : List Section}
      (hnote : Comment note) (more : SpellsFile entries sections cs) :
      SpellsFile entries sections (note ++ '\n' :: cs)
  | entry {key : String} {document : Document} {cs value rest : List Char} {entries : List Entry}
      {sections : List Section} (hkey : SpellsKey key cs) (hvalue : Spells document value)
      (more : SpellsFile entries sections rest) :
      SpellsFile (⟨[], key, document⟩ :: entries) sections (entryLine cs value ++ '\n' :: rest)
  | header {key : String} {cs rest : List Char} {entries : List Entry} {sections : List Section}
      (hkey : SpellsKey key cs) (more : SpellsFile entries sections rest) :
      SpellsFile [] (⟨false, [], key, entries⟩ :: sections) (headerLine cs ++ '\n' :: rest)

/-- What is left of a line that has ended. -/
theorem restOfLine?_feed (rest : List Char) : restOfLine? ('\n' :: rest) = some rest :=
  restOfLine?_append (List.forall_mem_nil _) .none .feed rest

theorem header?_append {key : String} {cs : List Char} (hkey : SpellsKey key cs) {fuel : Nat}
    (hfuel : cs.length ≤ fuel) (rest : List Char) :
    header? fuel (headerLine cs ++ '\n' :: rest) = some ((false, [key]), rest) := by
  have hline : headerLine cs ++ '\n' :: rest = '[' :: (cs ++ ']' :: '\n' :: rest) := by
    simp only [headerLine, List.append_assoc, List.cons_append, List.nil_append]
  have hkeys : keys? fuel (cs ++ ']' :: '\n' :: rest) maxKeys = some ([key], ']' :: '\n' :: rest) :=
    keys?_append hkey hfuel rfl rfl (by decide) 79
  rw [hline]
  obtain ⟨c, cs, rfl, hc⟩ := hkey.exists_cons
  unfold header?
  split
  · next he =>
    -- Two brackets would start one more table of a series.
    obtain rfl := (List.cons.inj (List.cons.inj he).2).1
    exact absurd (by decide) hc
  · next he =>
    obtain rfl := (List.cons.inj he).2
    simp only [hkeys, bind, Option.bind, mark?, if_true, restOfLine?_feed]
    rfl
  · next he => exact (he _ rfl).elim

theorem sections?_entry {cs after rest : List Char} {c : Char} {entry : Entry} {fuel : Nat}
    (hskip : skipGaps fuel cs = c :: after) (hc : c ≠ '[')
    (hentry : entry? fuel 0 skipSpaces (c :: after) = some (entry, '\n' :: rest)) :
    sections? (fuel + 1) cs =
      (sections? fuel rest).map fun (entries, sections) => (entry :: entries, sections) := by
  rw [sections?, hskip]
  split
  · next he => cases he
  · next he => exact absurd (List.cons.inj he).1 hc
  · simp only [hentry, bind, Option.bind, restOfLine?_feed]
    cases sections? fuel rest <;> rfl

theorem sections?_header {cs after rest : List Char} {key : String} {fuel : Nat}
    (hskip : skipGaps fuel cs = '[' :: after)
    (hheader : header? fuel ('[' :: after) = some ((false, [key]), rest)) :
    sections? (fuel + 1) cs =
      (sections? fuel rest).map fun (entries, sections) =>
        ([], ⟨false, [], key, entries⟩ :: sections) := by
  rw [sections?, hskip]
  simp only [hheader, bind, Option.bind, List.getLast?_singleton]
  cases sections? fuel rest <;> rfl

/-- **The entries and the sections of a file are read**, also after blank lines and comments. -/
theorem sections?_append {entries : List Entry} {sections : List Section} {cs : List Char}
    (h : SpellsFile entries sections cs) {gap : List Char} (hgap : Gap gap) {fuel : Nat}
    (hfuel : gap.length + cs.length + 1 < fuel) :
    sections? fuel (gap ++ cs) = some (entries, sections) := by
  induction h generalizing gap fuel with
  | nil =>
    obtain ⟨fuel, rfl⟩ := Nat.exists_eq_add_one_of_ne_zero (Nat.ne_zero_of_lt hfuel)
    have hskip : skipGaps fuel (gap ++ []) = [] :=
      skipGaps_append hgap (by omega) stops_nil
    rw [sections?, hskip]
  | @comment note cs entries sections hnote _ ih =>
    -- A comment becomes part of the gap in front of what comes next.
    have hline : gap ++ (note ++ '\n' :: cs) = gap ++ (note ++ ['\n']) ++ cs := by
      simp only [List.append_assoc, List.cons_append, List.nil_append]
    simp only [List.length_append, List.length_cons] at hfuel
    rw [hline, ih (hgap.append_line hnote .feed)]
    simp only [List.length_append, List.length_cons, List.length_nil]
    omega
  | @entry key document cs value rest entries sections hkey hvalue _ ih =>
    obtain ⟨fuel, rfl⟩ : ∃ fuel', fuel = fuel' + 2 := ⟨fuel - 2, by omega⟩
    simp only [List.length_append, List.length_cons] at hfuel
    have hread := entry?_append hkey hvalue (show (entryLine cs value).length ≤ fuel by omega) rest
    obtain ⟨c, cs, rfl, hc⟩ := hkey.exists_cons
    have hskip := skipGaps_append hgap (show gap.length < fuel + 1 by omega)
      ((stops_cons.mpr hc : Stops _ (entryLine (c :: cs) value ++ '\n' :: rest)).mono (by decide))
    have hbracket : c ≠ '[' := by
      rintro rfl
      exact hc (by decide)
    have hrest := ih (Gap.blanks (List.forall_mem_nil _))
      (show 0 + rest.length + 1 < fuel + 1 by omega)
    exact (sections?_entry hskip hbracket hread).trans (congrArg (Option.map _) hrest)
  | @header key cs rest entries sections hkey _ ih =>
    obtain ⟨fuel, rfl⟩ := Nat.exists_eq_add_one_of_ne_zero (Nat.ne_zero_of_lt hfuel)
    simp only [headerLine, List.length_append, List.length_cons] at hfuel
    have hread := header?_append hkey (show cs.length ≤ fuel by omega) rest
    have hskip := skipGaps_append hgap (show gap.length < fuel by omega)
      (stops_cons.mpr (by decide) : StopsGap (headerLine cs ++ '\n' :: rest))
    have hrest := ih (Gap.blanks (List.forall_mem_nil _)) (show 0 + rest.length + 1 < fuel by omega)
    exact (sections?_header hskip hread).trans (congrArg (Option.map _) hrest)

end ImportAtlas.Toml
