import ImportAtlas.Codec.Graph
import ImportAtlas.Error
import ImportAtlas.Render.Csv
import ImportAtlas.Render.Dot
import ImportAtlas.Render.Text
import ImportAtlas.Settings.Basic

/-!
# Rendering outcomes

Of the formats only the one for tables can fail, on a table whose rows are not of one length.

## Main definitions

* `Renderer`: a format with its options
* `Renderer.table`: the text of a table
* `Renderer.graph`, `Renderer.cycles`, `Renderer.impact`, `Renderer.report`: the text of an
  outcome
-/

namespace ImportAtlas

/-- A format with its options, which matter to text for readers only. -/
structure Renderer where
  format : OutputFormat := .text
  colours : Bool := false
  verbose : Bool := false
  quiet : Bool := false
  deriving DecidableEq, Repr

namespace Renderer

open Render

/-- The text of a table. -/
def table (rows : List (List String)) : Except Error String :=
  (csv rows).mapError fun row => .csv (.other row.message)

variable (renderer : Renderer)

/-- The text of a graph. -/
def graph (value : Graph) : Except Error String :=
  match renderer.format with
  | .text =>
    if renderer.quiet then .ok (graphBrief value)
    else .ok (showSpans renderer.colours (graphText renderer.verbose value))
  | .json => .ok (Graph.codec.encode value).pretty
  | .csv => table (graphTable value)
  | .dot => .ok (graphDot value)

/-- The document of cycles. -/
def cyclesJson (cycles : List (List String)) : Json :=
  .object [("count", .natural cycles.length), ("cycles", .array (cycles.map Json.texts))]

/-- The text of cycles. -/
def cycles (value : List (List String)) : Except Error String :=
  match renderer.format with
  | .text =>
    if renderer.quiet then .ok (cyclesBrief value)
    else .ok (showSpans renderer.colours (cyclesText value))
  | .json => .ok (cyclesJson value).pretty
  | .csv => table (cyclesTable value)
  | .dot => .ok (cyclesDot value)

/-- The text of an impact. -/
def impact (value : Impact) : Except Error String :=
  match renderer.format with
  | .text =>
    if renderer.quiet then .ok (impactBrief value)
    else .ok (showSpans renderer.colours (impactText renderer.verbose value))
  | .json => .ok (Impact.codec.encode value).pretty
  | .csv => table (impactTable value)
  | .dot => .ok (impactDot value)

/-- The text of a report. Its drawing is that of its graph. -/
def report (value : Report) : Except Error String :=
  match renderer.format with
  | .text =>
    if renderer.quiet then .ok (reportBrief value)
    else .ok (showSpans renderer.colours (reportText renderer.verbose value))
  | .json => .ok (Report.codec.encode value).pretty
  | .csv => table (reportTable value)
  | .dot => .ok (graphDot value.graph)

end Renderer

end ImportAtlas
