import ImportAtlas.Proofs.Drawing.Names

/-!
# Reading drawings

A drawing is read in two steps. A reader takes it character by character into tokens: names between
quotes, words, and marks, with blanks between them. Then the tokens are taken into statements, each
of which ends with a semicolon or a brace. Nothing here knows what is drawn.

Texts are read piece by piece: what is read of a text is what is read of its pieces, one after the
other, so that a drawing need not be looked at as a whole.

## Main definitions

* `Drawing.Place`, `Drawing.step`, `Drawing.scan`: the reader, one more character, and a text
* `Drawing.Statement`, `Drawing.parse`: the statements of tokens
* `Drawing.read`: the statements of a text
* `Drawing.Scans`, `Drawing.Writes`: what is read of a piece of a drawing

## Main results

* `Drawing.scans_dotQuoted`: a quoted name is read as one token, whatever characters it has
* `Drawing.parse_flatMap_tokens`: the tokens of statements are taken into these statements
* `Drawing.Writes.read`: a text that writes statements is read as these statements
-/

namespace ImportAtlas.Drawing

open Render (dotEscape dotQuoted)

/-! ## Tokens -/

/-- A token of a drawing. -/
inductive Token where
  /-- A name, which stands between quotes. -/
  | name (text : String)
  /-- Letters, digits and underscores. -/
  | word (text : String)
  /-- Any other character that is not blank. -/
  | mark (c : Char)
  deriving DecidableEq, Repr

/-- Where a reader stands. -/
inductive Place where
  | between
  /-- In a word, behind its start. -/
  | word (start : List Char)
  /-- Between the quotes of a name, behind the start of what stands there. -/
  | name (start : List Char)
  deriving DecidableEq, Repr

/-- Whether a character belongs to a word. -/
def isWord (c : Char) : Bool := c.isAlphanum || c == '_'

/-- One more character between tokens: the next place, and the token that ends with it. -/
def stepBetween (c : Char) : Place × List Token :=
  if c = '"' then (.name [], [])
  else if isWord c then (.word [c], [])
  else if c.isWhitespace then (.between, [])
  else (.between, [.mark c])

/-- One more character: the next place, and the tokens that end with it. -/
def step : Place → Char → Place × List Token
  | .between, c => stepBetween c
  | .word start, c =>
    if isWord c then (.word (start ++ [c]), [])
    else ((stepBetween c).1, .word (String.ofList start) :: (stepBetween c).2)
  | .name start, c =>
    if c = '"' ∧ Even (backslashes start) then (.between, [.name (String.ofList (undo start))])
    else (.name (start ++ [c]), [])

/-- Where the reader stands behind a text, and the tokens that end in it. -/
def scan (place : Place) : List Char → Place × List Token
  | [] => (place, [])
  | c :: cs =>
    let (next, tokens) := step place c
    let (last, rest) := scan next cs
    (last, tokens ++ rest)

/-! ## Statements -/

/-- A statement of a drawing. -/
inductive Statement where
  /-- The start of a block of a kind. -/
  | start (kind name : String)
  /-- The end of a block. -/
  | finish
  /-- A setting of the block. -/
  | setting (key value : String)
  /-- A node with a setting of its own. -/
  | node (name key value : String)
  /-- An edge, which may have a setting of its own. -/
  | edge (source target : String) (setting : Option (String × String))
  deriving DecidableEq, Repr

/-- The tokens of a statement. -/
def Statement.tokens : Statement → List Token
  | .start kind name => [.word kind, .word name, .mark '\x7b']
  | .finish => [.mark '\x7d']
  | .setting key value => [.word key, .mark '=', .name value, .mark ';']
  | .node name key value =>
    [.name name, .mark '[', .word key, .mark '=', .word value, .mark ']', .mark ';']
  | .edge source target none =>
    [.name source, .mark '-', .mark '>', .name target, .mark ';']
  | .edge source target (some (key, value)) =>
    [.name source, .mark '-', .mark '>', .name target,
      .mark '[', .word key, .mark '=', .name value, .mark ']', .mark ';']

/-- The statements that tokens are taken into. -/
def parse : List Token → Option (List Statement)
  | [] => some []
  | .word kind :: .word name :: .mark '\x7b' :: rest => (parse rest).map (.start kind name :: ·)
  | .mark '\x7d' :: rest => (parse rest).map (.finish :: ·)
  | .word key :: .mark '=' :: .name value :: .mark ';' :: rest =>
    (parse rest).map (.setting key value :: ·)
  | .name name :: .mark '[' :: .word key :: .mark '=' :: .word value :: .mark ']' :: .mark ';' ::
      rest => (parse rest).map (.node name key value :: ·)
  | .name source :: .mark '-' :: .mark '>' :: .name target :: .mark ';' :: rest =>
    (parse rest).map (.edge source target none :: ·)
  | .name source :: .mark '-' :: .mark '>' :: .name target :: .mark '[' :: .word key :: .mark '=' ::
      .name value :: .mark ']' :: .mark ';' :: rest =>
    (parse rest).map (.edge source target (some (key, value)) :: ·)
  | _ => none

/-- The statements of a text, if it is a drawing. -/
def read (text : String) : Option (List Statement) :=
  match scan .between text.toList with
  | (.between, tokens) => parse tokens
  | _ => none

example : read "\x7d \"a\\\"\x7d;\" -> \"b\\\\\";" =
    some [.finish, .edge "a\"\x7d;" "b\\" none] := by cbv

example : read "\"a\" -> \"b\"" = none ∧ read "\"a;" = none ∧ read "a" = none := by cbv

/-! ## Reading piece by piece -/

theorem scan_append (place : Place) (cs ds : List Char) :
    scan place (cs ++ ds) =
      ((scan (scan place cs).1 ds).1, (scan place cs).2 ++ (scan (scan place cs).1 ds).2) := by
  induction cs generalizing place with
  | nil => rfl
  | cons c cs ih => simp [scan, ih]

/-- Reading a text takes the reader from one place to another, and tokens end in it. -/
def Scans (place : Place) (text : String) (next : Place) (tokens : List Token) : Prop :=
  scan place text.toList = (next, tokens)

theorem Scans.append {place middle next : Place} {text rest : String} {tokens others : List Token}
    (htext : Scans place text middle tokens) (hrest : Scans middle rest next others) :
    Scans place (text ++ rest) next (tokens ++ others) := by
  unfold Scans at *
  rw [String.toList_append, scan_append, htext, hrest]

/-- A word goes on with the characters of words. -/
theorem scans_word (start : List Char) {text : String} (h : ∀ c ∈ text.toList, isWord c = true) :
    Scans (.word start) text (.word (start ++ text.toList)) [] := by
  show scan (.word start) text.toList = _
  generalize text.toList = cs at h ⊢
  induction cs generalizing start with
  | nil => simp [scan]
  | cons c cs ih =>
    obtain ⟨hc, hcs⟩ := List.forall_mem_cons.mp h
    have hstep : step (.word start) c = (.word (start ++ [c]), []) := by simp [step, hc]
    simp [scan, hstep, ih _ hcs]

/-- What stands between the quotes goes on as long as no quote closes it. -/
theorem scan_name {start piece : List Char} (h : Unclosed start piece) :
    scan (.name start) piece = (.name (start ++ piece), []) := by
  induction piece generalizing start with
  | nil => simp [scan]
  | cons c cs ih =>
    obtain ⟨hc, hcs⟩ := unclosed_cons_iff.mp h
    have hstep : step (.name start) c = (.name (start ++ [c]), []) := if_neg hc
    simp [scan, hstep, ih hcs]

/-- **A quoted name is read as one token**, whatever characters it has. -/
theorem scans_dotQuoted (s : String) : Scans .between (dotQuoted s) .between [.name s] := by
  have heven : Even (backslashes []) := Even.zero
  have hopen : step .between '"' = (.name [], []) := rfl
  have hbetween := scan_name (unclosed_escaped heven s.toList)
  have hclose : step (.name (s.toList.flatMap dotEscape)) '"' = (.between, [.name s]) := by
    have hclosing := even_backslashes_escaped heven s.toList
    rw [List.nil_append] at hclosing
    simp [step, hclosing, undo_escaped]
  show scan .between (dotQuoted s).toList = _
  rw [toList_dotQuoted]
  simp [scan, scan_append, hopen, hbetween, hclose]

/-! ## Statements by their tokens -/

theorem parse_tokens_append (statement : Statement) (rest : List Token) :
    parse (statement.tokens ++ rest) = (parse rest).map (statement :: ·) := by
  cases statement with
  | edge source target setting => cases setting <;> rfl
  | _ => rfl

/-- **The tokens of statements are taken into these statements.** -/
theorem parse_flatMap_tokens (statements : List Statement) :
    parse (statements.flatMap Statement.tokens) = some statements := by
  induction statements with
  | nil => rfl
  | cons statement statements ih =>
    rw [List.flatMap_cons, parse_tokens_append, ih]
    rfl

/-- A text has the tokens of statements, one after the other. -/
def Writes (text : String) (statements : List Statement) : Prop :=
  Scans .between text .between (statements.flatMap Statement.tokens)

namespace Writes

variable {text rest : String} {statements others : List Statement}

theorem of_scans {statement : Statement} (h : Scans .between text .between statement.tokens) :
    Writes text [statement] := by
  simpa [Writes] using h

theorem append (htext : Writes text statements) (hrest : Writes rest others) :
    Writes (text ++ rest) (statements ++ others) := by
  unfold Writes
  rw [List.flatMap_append]
  exact Scans.append htext hrest

/-- Texts that write one statement each write all of them. -/
theorem join {α : Type} {text : α → String} {statements : α → List Statement} (values : List α)
    (h : ∀ value ∈ values, Writes (text value) (statements value)) :
    Writes (String.join (values.map text)) (values.flatMap statements) := by
  induction values with
  | nil => rfl
  | cons value values ih =>
    obtain ⟨hvalue, hvalues⟩ := List.forall_mem_cons.mp h
    rw [List.map_cons, String.join_cons, List.flatMap_cons]
    exact hvalue.append (ih hvalues)

/-- **A text that writes statements is read as these statements.** -/
theorem read (h : Writes text statements) : read text = some statements := by
  unfold Drawing.read
  rw [show scan .between text.toList = _ from h]
  exact parse_flatMap_tokens statements

end Writes

end ImportAtlas.Drawing
