import ImportAtlas.Proofs.Codec.Repository
import ImportAtlas.Proofs.Repository.Violations
import ImportAtlas.Repository.Reading

/-!
# Reading repository descriptions

Whoever reads a description from a text that holds it gets the description itself if it is valid, and
otherwise the first violation as an error, with the path of its file. This is what the check says of the
description, whatever way it came from.

## Main results

* `Repository.read_of_holds`: reading a text is checking the description that it holds
* `Repository.read_firstViolation`: which descriptions are accepted, and how the others are refused
-/

namespace ImportAtlas

namespace Repository

/-- Reading a text is checking the description that it holds. -/
theorem read_of_holds {r : Repository} (hr : r.InRange) {text : String}
    (htext : Json.Holds text (codec.encode r).document) (origin : String) :
    read origin text = (r.check.mapError Violation.toError).map fun _ => r := by
  have hjson : Json.read codec text = .ok r :=
    (Json.read_eq_of_holds codec htext).trans (readsBack hr)
  unfold read
  rw [hjson]
  change (r.check.mapError Violation.toError >>= fun _ => pure r) = _
  cases r.check <;> rfl

/-- **Exactly the valid descriptions are accepted.** The others are refused because of the first
violation, with the path of its file unless that is blank. -/
theorem read_firstViolation {r : Repository} (hr : r.InRange) {text : String}
    (htext : Json.Holds text (codec.encode r).document) (origin : String) :
    (read origin text = .ok r ↔ r.IsValid) ∧
    (¬r.IsValid → ∃ file violation, r.violations.head? = some (file, violation) ∧
      read origin text = .error violation.toError ∧
      violation.toError.kind = "ValidationError" ∧
      violation.toError.paths = if Text.isBlankText file.path then [] else [file.path]) ∧
    read origin text = (r.check.mapError Violation.toError).map fun _ => r := by
  have hread := read_of_holds hr htext origin
  refine ⟨?_, fun hinvalid => ?_, hread⟩
  · rw [hread, ← r.check_eq_ok_iff_isValid]
    cases r.check with
    | error violation => simp [Except.mapError, Except.map]
    | ok => simp [Except.mapError, Except.map]
  · rw [← r.violations_eq_nil_iff, ← List.head?_eq_none_iff, ← Ne,
      Option.ne_none_iff_exists'] at hinvalid
    obtain ⟨⟨file, violation⟩, hfirst⟩ := hinvalid
    have hcheck : r.check = .error violation := by
      rw [Outcome.eq_error_iff, r.fault?_check, hfirst]
      rfl
    refine ⟨file, violation, hfirst, ?_, ?_, paths_of_head?_violations hfirst⟩
    · rw [hread, hcheck]
      rfl
    · cases violation <;> rfl

/-- A method that ends before it starts comes before the functions of its file, and before a file that
has the path of an earlier one. -/
theorem read_firstViolation_method :
    let f : FunctionDecl := { name := "f", startLine := 2, endLine := 3 }
    let g : FunctionDecl := { name := "g", startLine := 5, endLine := 4, complexity := 0 }
    let r : Repository :=
      { rootPath := "/repo", files := [
          { path := "a.py", content := "", functions := [f] },
          { path := "b.py", content := "", functions := [{ f with name := " " }],
            classes := [{ name := "B", startLine := 1, endLine := 9, methods := [f, g] }] },
          { path := "a.py", content := "" }] }
    let text := (codec.encode r).pretty
    r.InRange ∧ Json.Holds text (codec.encode r).document ∧ ¬r.IsValid ∧
      read "<input>" text =
        .error (.validation "function 'g' starts at line 5 after it ends at line 4 (in b.py)"
          ["b.py"]) := by
  intro f g r text
  have hr : r.InRange := by decide
  have htext : Json.Holds text (codec.encode r).document := Json.holds_pretty _
  have hinvalid : ¬r.IsValid := by decide
  obtain ⟨-, hrefused, -⟩ := read_firstViolation hr htext "<input>"
  obtain ⟨file, violation, hfirst, hread, -, -⟩ := hrefused hinvalid
  have hg : r.violations.head?.map (·.2) =
      some (.declaration "b.py" (.backwards .function "g" 5 4)) := by decide
  rw [hfirst] at hg
  obtain rfl := Option.some.inj hg
  exact ⟨hr, htext, hinvalid, hread⟩

end Repository

end ImportAtlas
