import ImportAtlas.Glob.Pattern

/-!
# Matching texts against glob patterns

The tokens of a pattern are matched from left to right. A token for a run tries the shortest run
first and gives the rest of the pattern a chance after each; a token for components does so only
at the start of a component, or with nothing left. A token for one character that finds no text
left ends the whole search, since longer runs leave even less text to it.

## Main definitions

* `Glob.Verdict`: what a search from one place tells
* `Glob.search`: the search for tokens from one place of a text
* `Glob.Pattern.accepts`: whether a pattern describes a whole text
-/

namespace ImportAtlas.Glob

/-- What a search from one place of the text tells. -/
inductive Verdict where
  /-- The rest of the pattern describes the rest of the text. -/
  | accepted
  /-- It does not from here, but may from a later place. -/
  | rejected
  /-- It does not from here, nor from any later place: the text is too short. -/
  | exhausted
  deriving DecidableEq, Repr

/-- Tries the rest of a pattern after each run of characters, the shortest first. -/
def afterRun (rest : Bool → List Char → Verdict) (atStart : Bool) : List Char → Verdict
  | [] => rest atStart []
  | c :: cs =>
    match rest atStart (c :: cs) with
    | .rejected => afterRun rest (c == '/') cs
    | verdict => verdict

/-- Tries the rest of a pattern at the start of each later component, and at the end of the
text. -/
def afterSlash (rest : Bool → List Char → Verdict) (atStart : Bool) : List Char → Verdict
  | [] => rest atStart []
  | c :: cs =>
    if c == '/' then
      match rest true cs with
      | .rejected => afterSlash rest true cs
      | verdict => verdict
    else afterSlash rest false cs

/-- Tries the rest of a pattern here and after each run of whole components. -/
def afterComponents (rest : Bool → List Char → Verdict) (atStart : Bool) (cs : List Char) :
    Verdict :=
  match rest atStart cs with
  | .rejected => afterSlash rest atStart cs
  | verdict => verdict

/-- Matches one character with `accepts` and the text after it with the rest of the pattern. -/
def afterOne (rest : Bool → List Char → Verdict) (accepts : Char → Bool) : List Char → Verdict
  | [] => .exhausted
  | c :: cs => if accepts c then rest (c == '/') cs else .rejected

/-- Searches a text from one place, `atStart` telling whether a component starts there. -/
def search : List Token → Bool → List Char → Verdict
  | [], _, cs => if cs.isEmpty then .accepted else .rejected
  | .run :: tokens, atStart, cs => afterRun (search tokens) atStart cs
  | .components :: tokens, atStart, cs => afterComponents (search tokens) atStart cs
  | .literal c :: tokens, _, cs => afterOne (search tokens) (· == c) cs
  | .one :: tokens, _, cs => afterOne (search tokens) (fun _ => true) cs
  | .within spans :: tokens, _, cs =>
    afterOne (search tokens) (fun c => spans.any (·.contains c)) cs
  | .except spans :: tokens, _, cs =>
    afterOne (search tokens) (fun c => !spans.any (·.contains c)) cs

/-- Whether a pattern describes the whole text. -/
def Pattern.accepts (pattern : Pattern) (text : String) : Bool :=
  search pattern.tokens true text.toList == .accepted

end ImportAtlas.Glob
