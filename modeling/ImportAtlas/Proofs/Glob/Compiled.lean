import ImportAtlas.Import.Classify
import ImportAtlas.Proofs.Outcome

/-!
# Lists of patterns

A list of globs compiles if each of them does, and otherwise fails with what is wrong with the first
faulty one. Once they are compiled, one of them accepts a text exactly if one of the globs describes
it, so nothing needs to be said of compiled patterns any more.

## Main definitions

* `Glob.fault?`: what is wrong with a text as a pattern
* `Glob.describes`: whether a text is a pattern for another one

## Main results

* `compilePatterns_eq_ok_iff`, `fault?_compilePatterns`: when a list of globs compiles
* `anyAccepts_eq_any_describes`: what the compiled patterns accept
-/

namespace ImportAtlas

namespace Glob

/-- What is wrong with a text as a pattern. -/
def fault? (pattern : String) : Option Fault :=
  Outcome.fault? (compile pattern)

/-- Whether a text is a pattern that describes another one. -/
def describes (pattern text : String) : Bool :=
  (compile pattern).toOption.any (·.accepts text)

theorem describes_of_compile {pattern : String} {compiled : Pattern}
    (h : compile pattern = .ok compiled) (text : String) :
    describes pattern text = compiled.accepts text := by
  simp [describes, h, Except.toOption]

end Glob

theorem compilePatterns_eq_ok_iff (patterns : List String) (compiled : List Glob.Pattern) :
    compilePatterns patterns = .ok compiled ↔ patterns.map Glob.compile = compiled.map .ok := by
  induction patterns generalizing compiled with
  | nil => cases compiled <;> simp [compilePatterns]
  | cons pattern patterns ih =>
    rw [compilePatterns, Outcome.bind_eq_ok_iff]
    simp only [Outcome.bind_eq_ok_iff, ih]
    constructor
    · rintro ⟨first, hfirst, rest, hrest, hok⟩
      obtain rfl := Except.ok.inj hok
      rw [List.map_cons, hfirst, hrest, List.map_cons]
    · intro h
      obtain ⟨first, rest, rfl, hfirst, hrest⟩ := List.map_eq_cons_iff.mp h.symm
      exact ⟨first, hfirst.symm, rest, hrest.symm, rfl⟩

/-- **The first faulty pattern counts.** -/
theorem fault?_compilePatterns (patterns : List String) :
    Outcome.fault? (compilePatterns patterns) = patterns.findSome? Glob.fault? := by
  induction patterns with
  | nil => rfl
  | cons pattern patterns ih =>
    have hrest : ∀ first, Glob.compile pattern = .ok first →
        Outcome.fault? (do
          let rest ← compilePatterns patterns
          return first :: rest) = patterns.findSome? Glob.fault? := by
      intro first _
      rw [Outcome.fault?_bind_pure, ih]
    rw [compilePatterns, Outcome.fault?_bind hrest, List.findSome?_cons]
    unfold Glob.fault?
    cases Outcome.fault? (Glob.compile pattern) <;> rfl

/-- **A compiled pattern accepts a text if one of the globs describes it.** -/
theorem anyAccepts_eq_any_describes {patterns : List String} {compiled : List Glob.Pattern}
    (h : compilePatterns patterns = .ok compiled) (text : String) :
    anyAccepts compiled text = patterns.any (Glob.describes · text) := by
  rw [compilePatterns_eq_ok_iff] at h
  induction patterns generalizing compiled with
  | nil =>
    obtain rfl := List.map_eq_nil_iff.mp h.symm
    rfl
  | cons pattern patterns ih =>
    obtain ⟨first, rest, rfl, hfirst, hrest⟩ := List.map_eq_cons_iff.mp h.symm
    rw [List.any_cons, Glob.describes_of_compile hfirst.symm, ← ih hrest.symm]
    rfl

end ImportAtlas
