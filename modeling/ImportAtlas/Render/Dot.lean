import ImportAtlas.Graph.Numbering
import ImportAtlas.Impact
import ImportAtlas.Text.Digits
import ImportAtlas.Text.Split

/-!
# Outcomes as drawings in the DOT language

A graph is drawn with numbered nodes that carry the paths as labels. Cycles and impacts are drawn
with the quoted paths themselves as nodes.

## Main definitions

* `Render.dotQuoted`: a quoted name
* `Render.graphDot`, `Render.cyclesDot`, `Render.impactDot`: the text of a drawing
-/

namespace ImportAtlas.Render

/-- The characters of a quoted name. The backslashes are doubled before the quotes get theirs. -/
def dotQuotedChars (cs : List Char) : List Char :=
  '"' :: Text.replaceWith '"' ['\\', '"'] (Text.replaceWith '\\' ['\\', '\\'] cs) ++ ['"']

/-- A quoted name. -/
def dotQuoted (s : String) : String := String.ofList (dotQuotedChars s.toList)

/-- The characters that stand for a character between quotes. -/
def dotEscape (c : Char) : List Char :=
  if c = '"' ∨ c = '\\' then ['\\', c] else [c]

/-- The characters that stand for a character in a label, where a line feed ends a line of the
drawing. -/
def labelEscape (c : Char) : List Char :=
  if c = '\n' then ['\\', 'l'] else dotEscape c

/-- A quoted label. -/
def labelQuoted (s : String) : String :=
  String.ofList ('"' :: s.toList.flatMap labelEscape ++ ['"'])

/-- The start of a block, named if it has a name. -/
def dotOpen (name : String) : String := name ++ " \x7b\n"

/-- The end of a block. -/
def dotClose : String := "\x7d\n"

/-- The drawing of a graph: the labels of the nodes and then the edges, by number. -/
def graphDot (graph : Graph) : String :=
  let numbering := graph.numbering
  let node (entry : String × Nat) : String :=
    "    " ++ toString entry.2 ++ " [ label = " ++ labelQuoted entry.1 ++ " ]\n"
  let arrow (arrow : Arrow) : String :=
    "    " ++ toString arrow.source ++ " -> " ++ toString arrow.target ++ " [ ]\n"
  dotOpen "digraph" ++ String.join (numbering.labels.toList.zipIdx.map node) ++
    String.join (numbering.arrows.toList.map arrow) ++ dotClose

/-- The pairs of neighbours of a cycle, the last file being followed by the first. -/
def neighbours (cycle : List String) : List (String × String) :=
  cycle.zip (cycle.drop 1 ++ cycle.take 1)

/-- The block of the cycle of a place. -/
def cycleDot (cycle : List String) (place : Nat) : String :=
  dotOpen ("    subgraph cluster_" ++ toString place) ++
    "        label = \"cycle " ++ toString (place + 1) ++ "\";\n" ++
    String.join ((neighbours cycle).map fun (path, next) =>
      "        " ++ dotQuoted path ++ " -> " ++ dotQuoted next ++ ";\n") ++
    "    " ++ dotClose

/-- The drawing of cycles, each a block of its own. -/
def cyclesDot (cycles : List (List String)) : String :=
  dotOpen "digraph cycles" ++
    String.join (cycles.zipIdx.map fun (cycle, place) => cycleDot cycle place) ++ dotClose

/-- The drawing of an impact: the target, and an edge from each dependent to it. -/
def impactDot (impact : Impact) : String :=
  dotOpen "digraph impact" ++
    "    " ++ dotQuoted impact.target ++ " [shape = box];\n" ++
    String.join (impact.dependents.entries.map fun (path, distance) =>
      "    " ++ dotQuoted path ++ " -> " ++ dotQuoted impact.target ++ " [label = \"" ++
        toString distance ++ "\"];\n") ++
    dotClose

end ImportAtlas.Render
