import ImportAtlas.Render.Csv
import Mathlib.Data.List.Basic

/-!
# Reading tables

A table of comma-separated values is read character by character. A field either has no quotes, commas
and ends of lines in it, or stands between quotes; between quotes a pair of quotes means one of them, and
all else means itself. A line feed ends a row, with or without a carriage return before it, and the last
row may go without. Nothing here knows how tables are written; that every table is read back as it was
is a result.

## Main definitions

* `Csv.Reader`: what has been read of a table
* `Csv.Reader.step`: one more character
* `Csv.read`: the rows of a text

## Main results

* `Csv.read_flatMap_csvRow`: what is written is read back, whatever the fields are
* `Csv.exists_csv_eq_ok`: a table whose rows are of one length is written, and is read back
-/

namespace ImportAtlas.Csv

/-- Where a reader stands. -/
inductive Place where
  /-- At the start of a field. -/
  | start
  /-- In a field without quotes. -/
  | bare
  /-- Between the quotes of a field. -/
  | quoted
  /-- Behind a quote that ends a field or is the first of a pair. -/
  | closing
  /-- Behind a carriage return, which only a line feed may follow. -/
  | returned
  deriving DecidableEq, Repr

/-- What has been read of a table. -/
structure Reader where
  place : Place := .start
  /-- The characters of the field that is being read. -/
  field : List Char := []
  /-- The fields before it in its row. -/
  row : List String := []
  /-- The rows before that one. -/
  rows : List (List String) := []
  deriving DecidableEq, Repr

namespace Reader

variable (reader : Reader)

/-- The reader with one more character in the field. -/
def push (place : Place) (c : Char) : Reader :=
  { reader with place := place, field := reader.field ++ [c] }

/-- The reader behind the field. -/
def endField : Reader :=
  { reader with place := .start, field := [], row := reader.row ++ [String.ofList reader.field] }

/-- The reader behind the field, which is the last one of its row. -/
def endRow : Reader where
  rows := reader.rows ++ [reader.row ++ [String.ofList reader.field]]

/-- The reader after a character where the field may end; it goes on with `otherwise` if the character
does not end it. -/
def separate (c : Char) (otherwise : Option Reader) : Option Reader :=
  if c = ',' then some reader.endField
  else if c = '\n' then some reader.endRow
  else if c = '\r' then some { reader with place := .returned }
  else otherwise

/-- The reader after one more character, unless it is out of place. -/
def step (c : Char) : Option Reader :=
  match reader.place with
  | .start =>
    if c = '"' then some { reader with place := .quoted }
    else reader.separate c (some (reader.push .bare c))
  | .bare => if c = '"' then none else reader.separate c (some (reader.push .bare c))
  | .quoted =>
    if c = '"' then some { reader with place := .closing } else some (reader.push .quoted c)
  | .closing =>
    if c = '"' then some (reader.push .quoted c) else reader.separate c none
  | .returned => if c = '\n' then some reader.endRow else none

/-- The rows, if the text may end here. Behind the end of a line there is no further row. -/
def finish? : Option (List (List String)) :=
  match reader.place with
  | .start => if reader.row.isEmpty then some reader.rows else some reader.endRow.rows
  | .bare | .closing => some reader.endRow.rows
  | .quoted | .returned => none

end Reader

/-- The rows of a text, if it is a table. -/
def read (text : String) : Option (List (List String)) :=
  (text.toList.foldlM Reader.step {}).bind Reader.finish?

example : read "a,\"b\r\n\"\"c\"\r\n,\"\"" = some [["a", "b\r\n\"c"], ["", ""]] := by decide

example : read "a\"b" = none ∧ read "\"a\"b" = none ∧ read "\"a" = none ∧ read "a\rb" = none := by
  decide

/-! ## Fields -/

open Render (csvField csvRow csv needsQuotes RaggedRow)

/-- Between quotes a pair of quotes means one, and all else means itself. -/
theorem foldlM_quoted {reader : Reader} (hplace : reader.place = .quoted) (cs : List Char) :
    (cs.flatMap fun c => if c = '"' then ['"', '"'] else [c]).foldlM Reader.step reader =
      some { reader with field := reader.field ++ cs } := by
  induction cs generalizing reader with
  | nil => simp
  | cons c cs ih =>
    have hpush : (if c = '"' then ['"', '"'] else [c]).foldlM Reader.step reader =
        some (reader.push .quoted c) := by
      by_cases hc : c = '"'
      · subst hc
        simp [Reader.step, hplace, Reader.push]
      · simp [Reader.step, hplace, hc]
    rw [List.flatMap_cons, List.foldlM_append, hpush]
    have hrest : (reader.push .quoted c).place = .quoted := rfl
    refine (ih hrest).trans ?_
    simp [Reader.push, hplace]

theorem foldlM_bare {reader : Reader} (hplace : reader.place = .bare) {cs : List Char}
    (hcs : ∀ c ∈ cs, needsQuotes c = false) :
    cs.foldlM Reader.step reader = some { reader with field := reader.field ++ cs } := by
  induction cs generalizing reader with
  | nil => simp
  | cons c cs ih =>
    obtain ⟨hc, hcs⟩ := List.forall_mem_cons.mp hcs
    have hstep : reader.step c = some (reader.push .bare c) := by
      simp only [needsQuotes, Bool.or_eq_false_iff, beq_eq_false_iff_ne] at hc
      simp [Reader.step, Reader.separate, hplace, hc]
    rw [List.foldlM_cons, hstep]
    have hrest : (reader.push .bare c).place = .bare := rfl
    refine (ih hrest hcs).trans ?_
    simp [Reader.push, hplace]

/-- The places where a field may end. -/
def Place.MayEnd (place : Place) : Prop :=
  place = .start ∨ place = .bare ∨ place = .closing

/-- **A field is read back**, and then may end. -/
theorem foldlM_csvField (row : List String) (rows : List (List String)) (cs : List Char) :
    ∃ place : Place, place.MayEnd ∧
      (csvField cs).foldlM Reader.step { row := row, rows := rows } =
        some ⟨place, cs, row, rows⟩ := by
  unfold csvField
  by_cases hquotes : cs.any needsQuotes = true
  · refine ⟨.closing, .inr (.inr rfl), ?_⟩
    have hopen : Reader.step { row := row, rows := rows } '"' =
        some { place := .quoted, row := row, rows := rows } := rfl
    have hclose : Reader.step ⟨.quoted, cs, row, rows⟩ '"' = some ⟨.closing, cs, row, rows⟩ := rfl
    rw [if_pos hquotes, List.cons_append, List.foldlM_cons, hopen]
    change List.foldlM Reader.step _ (_ ++ ['"']) = _
    rw [List.foldlM_append, foldlM_quoted rfl]
    change List.foldlM Reader.step ⟨.quoted, cs, row, rows⟩ ['"'] = _
    rw [List.foldlM_cons, hclose]
    rfl
  · have hbare : ∀ c ∈ cs, needsQuotes c = false := by simpa using hquotes
    rw [if_neg hquotes]
    cases cs with
    | nil => exact ⟨.start, .inl rfl, rfl⟩
    | cons c cs =>
      -- The first character takes the reader into the field.
      obtain ⟨hc, hcs⟩ := List.forall_mem_cons.mp hbare
      have hstep : Reader.step { row := row, rows := rows } c = some ⟨.bare, [c], row, rows⟩ := by
        simp only [needsQuotes, Bool.or_eq_false_iff, beq_eq_false_iff_ne] at hc
        simp [Reader.step, Reader.separate, Reader.push, hc]
      refine ⟨.bare, .inr (.inl rfl), ?_⟩
      rw [List.foldlM_cons, hstep]
      exact foldlM_bare rfl hcs

/-! ## Rows -/

section Ends

variable {place : Place} (hplace : place.MayEnd) (cs : List Char) (row : List String)
  (rows : List (List String))

include hplace

theorem step_comma :
    Reader.step ⟨place, cs, row, rows⟩ ',' =
      some { row := row ++ [String.ofList cs], rows := rows } := by
  rcases hplace with rfl | rfl | rfl <;> rfl

theorem step_lineFeed :
    Reader.step ⟨place, cs, row, rows⟩ '\n' =
      some { rows := rows ++ [row ++ [String.ofList cs]] } := by
  rcases hplace with rfl | rfl | rfl <;> rfl

end Ends

/-- A row is read back, whatever fields come before it. -/
theorem foldlM_csvRow {fields : List String} (hne : fields ≠ []) (row : List String)
    (rows : List (List String)) :
    (csvRow fields).foldlM Reader.step { row := row, rows := rows } =
      some { rows := rows ++ [row ++ fields] } := by
  unfold csvRow
  -- Each field with its comma moves from what is to be read to the row.
  induction fields generalizing row with
  | nil => exact absurd rfl hne
  | cons field fields ih =>
    obtain ⟨place, hplace, hfield⟩ := foldlM_csvField row rows field.toList
    cases fields with
    | nil =>
      rw [List.map_singleton, Text.join, List.foldlM_append, hfield]
      change (Reader.step _ '\n').bind some = _
      rw [step_lineFeed hplace]
      simp
    | cons second fields =>
      have hjoin : Text.join [','] ((field :: second :: fields).map fun f => csvField f.toList) =
          csvField field.toList ++ ',' ::
            Text.join [','] ((second :: fields).map fun f => csvField f.toList) := by
        simp [Text.join]
      rw [hjoin, List.append_assoc, List.foldlM_append, hfield]
      change List.foldlM Reader.step _ (',' :: (_ ++ ['\n'])) = _
      rw [List.foldlM_cons, step_comma hplace]
      refine (ih (List.cons_ne_nil _ _) (row ++ [String.ofList field.toList])).trans ?_
      simp

/-! ## Tables -/

/-- **What is written is read back**, whatever the fields are. -/
theorem read_flatMap_csvRow {rows : List (List String)} (hne : ∀ row ∈ rows, row ≠ []) :
    read (String.ofList (rows.flatMap csvRow)) = some rows := by
  have hrows : ∀ done : List (List String),
      (rows.flatMap csvRow).foldlM Reader.step { rows := done } =
        some { rows := done ++ rows } := by
    induction rows with
    | nil => simp
    | cons row rows ih =>
      intro done
      obtain ⟨hrow, hrows⟩ := List.forall_mem_cons.mp hne
      rw [List.flatMap_cons, List.foldlM_append, foldlM_csvRow hrow]
      refine (ih hrows (done ++ [[] ++ row])).trans ?_
      simp
  unfold read
  rw [String.toList_ofList, hrows []]
  rfl

/-- **A table whose rows are of one length is written, and is read back.** -/
theorem exists_csv_eq_ok {rows : List (List String)} {width : Nat} (hpos : 0 < width)
    (hwidth : ∀ row ∈ rows, row.length = width) :
    ∃ text, csv rows = .ok text ∧ read text = some rows := by
  have hne : ∀ row ∈ rows, row ≠ [] := by
    intro row hrow
    exact List.ne_nil_of_length_pos ((hwidth row hrow).symm ▸ hpos)
  have hfirst : ∀ row ∈ rows, row.length = (rows.headD []).length := by
    intro row hrow
    obtain ⟨first, rest, rfl⟩ := List.exists_cons_of_ne_nil (List.ne_nil_of_mem hrow)
    rw [hwidth row hrow, List.headD_cons, hwidth first List.mem_cons_self]
  have hragged : rows.find? (·.length != (rows.headD []).length) = none := by
    rw [List.find?_eq_none]
    intro row hrow
    simp [hfirst row hrow]
  refine ⟨_, ?_, read_flatMap_csvRow hne⟩
  simp only [csv, hragged]

example : csv [["a", "b"], ["c"]] = .error ⟨2, 1⟩ := rfl

end ImportAtlas.Csv
