import ImportAtlas.Proofs.Text.Split
import ImportAtlas.Render.Text
import Std.Data.String.ToNat

/-!
# Reading listings

The brief form of an impact is a listing: a line for each dependent, with its path and its distance
behind a tab. A path may have tabs in it, but a distance has none, so the last tab of a line parts
the two. A path with a line feed in it would be taken for two lines; all other listings are read
back.

## Main definitions

* `Listing.line`, `Listing.text`: the lines of entries
* `Listing.readLine`, `Listing.read`: the entry of a line, and the entries of a text

## Main results

* `impactBrief_eq`: the brief form of an impact is a listing
* `read_text`: a listing is read back, if no path has a line feed in it
-/

namespace ImportAtlas.Listing

/-- The line of an entry, without its end. -/
def line (entry : String × Nat) : String :=
  entry.1 ++ "\t" ++ toString entry.2

/-- The text of entries. -/
def text (entries : List (String × Nat)) : String :=
  String.join (entries.map fun entry => line entry ++ "\n")

/-- The entry of a line: the path before its last tab and the number behind that. -/
def readLine (cs : List Char) : Option (String × Nat) :=
  match (Text.split (· == '\t') cs).reverse with
  | digits :: piece :: pieces =>
    (String.ofList digits).toNat?.map fun number =>
      (String.ofList (Text.join ['\t'] (piece :: pieces).reverse), number)
  | _ => none

/-- The entries of a text, every line of which has an end. -/
def read (text : String) : Option (List (String × Nat)) :=
  match (Text.split (· == '\n') text.toList).reverse with
  | [] :: lines => lines.reverse.mapM readLine
  | _ => none

example : read "a\tb.py\t12\nc.py\t1\n" = some [("a\tb.py", 12), ("c.py", 1)] := by cbv

example : read "a.py\t1" = none ∧ read "a.py\n" = none ∧ read "a.py\tb\n" = none := by cbv

/-- The brief form of an impact lists its dependents, the nearest first. -/
theorem impactBrief_eq (impact : Impact) : Render.impactBrief impact = text impact.nearestFirst :=
  rfl

/-! ## Lines -/

theorem isDigit_of_mem_digits {number : Nat} {c : Char} (hc : c ∈ (toString number).toList) :
    c.isDigit = true := by
  have hdigit : c ∈ Nat.toDigits 10 number := by simpa [Nat.repr] using hc
  exact Nat.isDigit_of_mem_toDigits (by decide) (by decide) hdigit

theorem not_mem_digits {c : Char} (hc : c.isDigit = false) (number : Nat) :
    c ∉ (toString number).toList := by
  intro hmem
  rw [isDigit_of_mem_digits hmem] at hc
  cases hc

/-- **The last tab parts the path from the number**, whatever the path is. -/
theorem readLine_line (entry : String × Nat) : readLine (line entry).toList = some entry := by
  obtain ⟨path, number⟩ := entry
  have hline : (line (path, number)).toList = path.toList ++ '\t' :: (toString number).toList := by
    simp [line]
  -- Behind the last tab there are digits only, so they are the last piece.
  have hdigits : Text.split (· == '\t') (toString number).toList = [(toString number).toList] := by
    apply Text.split_eq_singleton
    intro c hc
    rw [beq_eq_false_iff_ne]
    rintro rfl
    exact not_mem_digits (by decide) number hc
  have hpieces : Text.split (· == '\t') (line (path, number)).toList =
      Text.split (· == '\t') path.toList ++ [(toString number).toList] := by
    rw [hline, Text.split_append_cons (by decide), hdigits]
  -- The other pieces are those of the path, and joining them gives the path back.
  obtain ⟨piece, pieces, hpath⟩ : ∃ piece pieces,
      (Text.split (· == '\t') path.toList).reverse = piece :: pieces :=
    List.exists_cons_of_ne_nil (by simpa using Text.split_ne_nil _ _)
  have hjoin : Text.join ['\t'] (piece :: pieces).reverse = path.toList := by
    rw [← hpath, List.reverse_reverse, Text.join_split]
  unfold readLine
  rw [hpieces, List.reverse_append, List.reverse_singleton, List.singleton_append, hpath]
  simp only [hjoin, String.ofList_toList]
  exact congrArg (Option.map fun number => (path, number)) (Nat.toNat?_repr number)

/-- Lines without line feeds are found again in a text where each of them has an end. -/
theorem split_flatMap_lines {lines : List (List Char)} (h : ∀ line ∈ lines, '\n' ∉ line) :
    Text.split (· == '\n') (lines.flatMap (· ++ ['\n'])) = lines ++ [[]] := by
  induction lines with
  | nil => rfl
  | cons line lines ih =>
    obtain ⟨hline, hlines⟩ := List.forall_mem_cons.mp h
    have hfirst : Text.split (· == '\n') line = [line] := by
      apply Text.split_eq_singleton
      intro c hc
      rw [beq_eq_false_iff_ne]
      rintro rfl
      exact hline hc
    rw [List.flatMap_cons, List.append_assoc, List.singleton_append,
      Text.split_append_cons (by decide), hfirst, ih hlines, List.singleton_append,
      List.cons_append]

/-- **A listing is read back**, if no path has a line feed in it. -/
theorem read_text {entries : List (String × Nat)}
    (h : ∀ entry ∈ entries, '\n' ∉ entry.1.toList) : read (text entries) = some entries := by
  have htext : (text entries).toList =
      (entries.map fun entry => (line entry).toList).flatMap (· ++ ['\n']) := by
    simp [text, String.toList_join, List.flatMap_map]
  have hlines : ∀ cs ∈ entries.map (fun entry => (line entry).toList), '\n' ∉ cs := by
    intro cs hcs
    obtain ⟨entry, hentry, rfl⟩ := List.mem_map.mp hcs
    simp only [line, String.toList_append, List.mem_append, not_or]
    exact ⟨⟨h entry hentry, by decide⟩, not_mem_digits (by decide) entry.2⟩
  unfold read
  rw [htext, split_flatMap_lines hlines, List.reverse_append, List.reverse_singleton,
    List.singleton_append]
  simp only [List.reverse_reverse, List.mapM_map, Function.comp_def, readLine_line]
  exact (List.mapM_pure (m := Option) (f := id)).trans (congrArg some (List.map_id entries))

end ImportAtlas.Listing
