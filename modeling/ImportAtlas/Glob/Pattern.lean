/-!
# Glob patterns

A glob pattern describes texts: `?` stands for one character, `*` for any run of characters,
a bracketed class for one character of a set, and `**` as a whole path component for any run of
components. Everything else stands for itself, and nothing is escaped.

## Main definitions

* `Glob.Token`: the parts of a pattern
* `Glob.Fault`: why a text is no pattern, and where
* `Glob.compile`: the pattern that a text denotes
-/

namespace ImportAtlas.Glob

/-- The characters between two ends, both included. -/
structure Span where
  low : Char
  high : Char
  deriving DecidableEq, Repr

/-- Whether a character lies in the span. -/
def Span.contains (span : Span) (c : Char) : Bool :=
  span.low ≤ c && c ≤ span.high

/-- A part of a pattern. -/
inductive Token where
  /-- The character itself. -/
  | literal (c : Char)
  /-- One character, whichever it is. -/
  | one
  /-- One character of the class. -/
  | within (spans : List Span)
  /-- One character outside the class. -/
  | except (spans : List Span)
  /-- Any run of characters. -/
  | run
  /-- Any run of whole path components. -/
  | components
  deriving DecidableEq, Repr

/-- What is wrong with a pattern. -/
inductive Reason where
  /-- Three or more stars in a row. -/
  | wildcards
  /-- Two stars that are not a whole path component. -/
  | component
  /-- A class that is empty or not closed. -/
  | range
  deriving DecidableEq, Repr

/-- A reason in words. -/
def Reason.message : Reason → String
  | .wildcards => "wildcards are either regular `*` or recursive `**`"
  | .component => "recursive wildcards must form a single path component"
  | .range => "invalid range pattern"

/-- Why a text is no pattern: the place, counted in characters from zero, and the reason. -/
structure Fault where
  position : Nat
  reason : Reason
  deriving DecidableEq, Repr

/-- A fault in words. -/
def Fault.message (fault : Fault) : String :=
  "Pattern syntax error near position " ++ toString fault.position ++ ": " ++ fault.reason.message

/-- A compiled pattern. -/
structure Pattern where
  tokens : List Token
  deriving DecidableEq, Repr

/-- The spans of a class: `a-c` is a range, any other character stands for itself. -/
def readSpans : List Char → List Span
  | low :: '-' :: high :: rest => ⟨low, high⟩ :: readSpans rest
  | c :: rest => ⟨c, c⟩ :: readSpans rest
  | [] => []

/-- The class that starts after an opening bracket, with the text after its closing bracket. A
class holds at least one character, so a closing bracket in first place belongs to it. -/
def readClass? : List Char → Option (Token × List Char)
  | '!' :: first :: more =>
    match more.dropWhile (· != ']') with
    | [] => none
    | _ :: rest => some (.except (readSpans (first :: more.takeWhile (· != ']'))), rest)
  | ['!'] => none
  | first :: more =>
    match more.dropWhile (· != ']') with
    | [] => none
    | _ :: rest => some (.within (readSpans (first :: more.takeWhile (· != ']'))), rest)
  | [] => none

theorem length_dropWhile_le {α : Type} (p : α → Bool) (l : List α) :
    (l.dropWhile p).length ≤ l.length :=
  (List.dropWhile_sublist p).length_le

theorem length_lt_of_readClass? {cs rest : List Char} {token : Token}
    (h : readClass? cs = some (token, rest)) : rest.length < cs.length := by
  unfold readClass? at h
  split at h
  case h_1 first more =>
    split at h
    · cases h
    · rename_i hd
      have := length_dropWhile_le (· != ']') more
      rw [hd] at this
      cases h
      simp at this ⊢
      omega
  case h_2 => cases h
  case h_3 first more _ _ =>
    split at h
    · cases h
    · rename_i hd
      have := length_dropWhile_le (· != ']') more
      rw [hd] at this
      cases h
      simp at this ⊢
      omega
  case h_4 => cases h

/-- The tokens with one for any run of components. Directly after such a token that is not the
first of the pattern a second one adds nothing and is left out. -/
def pushComponents : List Token → List Token
  | .components :: earlier :: rest => .components :: earlier :: rest
  | tokens => .components :: tokens

/-- Reads the rest of a pattern of `total` characters. `previous` is the character before it, and
`tokens` are those read so far, the latest first. -/
def scan (total : Nat) (previous : Option Char) (tokens : List Token) (cs : List Char) :
    Except Fault Pattern :=
  match cs with
  | [] => .ok ⟨tokens.reverse⟩
  | '?' :: rest => scan total (some '?') (.one :: tokens) rest
  | '*' :: '*' :: '*' :: rest => .error ⟨total - (rest.length + 3) + 2, .wildcards⟩
  | '*' :: '*' :: rest =>
    let start := total - (rest.length + 2)
    -- Nothing but a slash may stand on either side, and the one behind belongs to the token.
    if previous.all (· == '/') then
      match rest with
      | [] => .ok ⟨(pushComponents tokens).reverse⟩
      | '/' :: rest => scan total (some '/') (pushComponents tokens) rest
      | _ => .error ⟨start + 2, .component⟩
    else .error ⟨start - 1, .component⟩
  | '*' :: rest => scan total (some '*') (.run :: tokens) rest
  | '[' :: rest =>
    match h : readClass? rest with
    | none => .error ⟨total - (rest.length + 1), .range⟩
    | some (token, after) =>
      have : after.length < rest.length := length_lt_of_readClass? h
      scan total (some ']') (token :: tokens) after
  | c :: rest => scan total (some c) (.literal c :: tokens) rest
termination_by cs.length

/-- The pattern that a text denotes, or the first fault in it. -/
def compile (text : String) : Except Fault Pattern :=
  scan text.toList.length none [] text.toList

end ImportAtlas.Glob
