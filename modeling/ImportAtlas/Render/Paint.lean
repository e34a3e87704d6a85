/-!
# Painted text

Text for a terminal is a list of spans, each in one style. Shown in colours, a span stands between
the control sequence that turns its style on and the one that turns it off; shown plain, it is its
text alone. Which spans there are never depends on which of the two is wanted.

## Main definitions

* `Style`, `Span`: styles and spans
* `Span.show`, `showSpans`: the text of spans, in colours or plain
-/

namespace ImportAtlas.Render

/-- A colour of the terminal. -/
inductive Colour where
  | red
  | green
  | yellow
  | blue
  | purple
  | cyan
  deriving DecidableEq, Repr

/-- The number of a colour in a control sequence. -/
def Colour.code : Colour → String
  | red => "31"
  | green => "32"
  | yellow => "33"
  | blue => "34"
  | purple => "35"
  | cyan => "36"

/-- How a span looks. -/
inductive Style where
  | plain
  | bold
  | coloured (colour : Colour)
  | boldColoured (colour : Colour)
  deriving DecidableEq, Repr

/-- The codes that turn a style on, if it has to be turned on. -/
def Style.codes? : Style → Option String
  | plain => none
  | bold => some "1"
  | coloured colour => some colour.code
  | boldColoured colour => some ("1;" ++ colour.code)

/-- A text in one style. -/
structure Span where
  style : Style
  text : String
  deriving DecidableEq, Repr

/-- A text without a style. -/
def plain (text : String) : Span := ⟨.plain, text⟩

/-- The control sequence for codes. -/
def controlSequence (codes : String) : String := "\x1b[" ++ codes ++ "m"

/-- The text of a span, in colours or plain. -/
def Span.show (colours : Bool) (span : Span) : String :=
  match span.style.codes? with
  | none => span.text
  | some codes =>
    if colours then controlSequence codes ++ span.text ++ controlSequence "0" else span.text

/-- The text of spans, in colours or plain. -/
def showSpans (colours : Bool) (spans : List Span) : String :=
  String.join (spans.map (Span.show colours))

/-- The spans of a line. -/
def line (spans : List Span) : List Span := spans ++ [plain "\n"]

/-- The spans of a line of plain text. -/
def plainLine (text : String) : List Span := [plain (text ++ "\n")]

end ImportAtlas.Render
