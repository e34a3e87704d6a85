import ImportAtlas.Graph.Check
import ImportAtlas.Graph.Digraph

/-!
# Strongly connected components and import cycles

One depth-first search finds the strongly connected components of a digraph. The search numbers
places as it discovers them and keeps those whose component is not complete on a stack. The low
link of a place is the least number known to be reachable from it on that stack; a place that is
left with its own number as low link is the first of its component, which then lies on the stack
from that place on.

Nothing recurses over the digraph: the places being explored are kept in a list of frames, and a
run is a sequence of steps on a `Search`. Each step either discovers a place or uses up a
successor or a frame, so a run ends.

An import cycle is a set of files that all reach each other through direct imports. Cycles are
listed in the order in which the search over the direct edges discovers them, and so are the files
of a cycle.

## Main definitions

* `Search`: the state of a search
* `Search.step`: one step
* `Search.run`: the steps until no frame is left
* `Digraph.components`: the components that hold a cycle, in the order of discovery
* `Graph.cyclesUnchecked`: the cycles of a graph
* `Graph.cycles`: the cycles of a graph that is checked first
-/

namespace ImportAtlas

/-- A place being explored, with the successors that have not been looked at. -/
structure Frame (n : Nat) where
  place : Fin n
  rest : List (Fin n)

/-- A component, its members in the order of discovery. -/
structure Component (n : Nat) where
  /-- The number of the first member. -/
  first : Nat
  members : List (Fin n)

/-- The state of a search. -/
structure Search (n : Nat) where
  /-- The number of each place discovered. -/
  number : Vector (Option Nat) n
  /-- The low link of each place discovered. -/
  lowLink : Vector Nat n
  /-- Whether a place is on the stack. -/
  onStack : Vector Bool n
  /-- The places whose component is not complete, the latest first. -/
  stack : List (Fin n)
  /-- The places being explored, the innermost first. -/
  frames : List (Frame n)
  /-- The next number. -/
  next : Nat
  /-- The components found that hold a cycle, the latest first. -/
  found : List (Component n)

namespace Search

variable {n : Nat}

/-- The state before anything is discovered. -/
def start : Search n where
  number := Vector.replicate n none
  lowLink := Vector.replicate n 0
  onStack := Vector.replicate n false
  stack := []
  frames := []
  next := 0
  found := []

/-- Discovers a place: gives it the next number and starts exploring it. -/
def discover (digraph : Digraph n) (search : Search n) (place : Fin n) : Search n :=
  { search with
    number := search.number.set place (some search.next) place.isLt
    lowLink := search.lowLink.set place search.next place.isLt
    onStack := search.onStack.set place true place.isLt
    stack := place :: search.stack
    frames := ⟨place, digraph.successors place⟩ :: search.frames
    next := search.next + 1 }

/-- Lowers the low link of a place to a bound. -/
def lower (search : Search n) (place : Fin n) (bound : Nat) : Search n :=
  { search with
    lowLink := search.lowLink.set place (min (search.lowLink.get place) bound) place.isLt }

/-- The stack down to and including a place, and what lies below it. -/
def splitStack (place : Fin n) : List (Fin n) → List (Fin n) × List (Fin n)
  | [] => ([], [])
  | top :: below =>
    if top = place then ([top], below)
    else
      let (above, rest) := splitStack place below
      (top :: above, rest)

/-- Takes the component that starts at a place off the stack, and notes it if it holds a cycle:
if it has more than one member, or its member is its own successor. -/
def complete (digraph : Digraph n) (search : Search n) (place : Fin n) (first : Nat) : Search n :=
  let (top, rest) := splitStack place search.stack
  { search with
    onStack :=
      top.foldl (fun onStack (member : Fin n) => onStack.set member false member.isLt)
        search.onStack
    stack := rest
    found :=
      if top.length > 1 || digraph.hasLoop place then ⟨first, top.reverse⟩ :: search.found
      else search.found }

/-- Leaves a place whose successors have all been looked at: passes its low link to the place
that it was discovered from, and completes its component if it is the first of it. -/
def leave (digraph : Digraph n) (search : Search n) (place : Fin n) : Search n :=
  -- The frame of the place itself is gone, so the first one is where it was discovered from.
  let passed := match search.frames with
    | [] => search
    | frame :: _ => search.lower frame.place (search.lowLink.get place)
  if passed.number.get place = some (passed.lowLink.get place) then
    passed.complete digraph place (passed.lowLink.get place)
  else passed

/-- Looks at a successor of a place: discovers it, or takes its number into account if it is on
the stack. -/
def look (digraph : Digraph n) (search : Search n) (place successor : Fin n) : Search n :=
  match search.number.get successor with
  | none => search.discover digraph successor
  | some number => if search.onStack.get successor then search.lower place number else search

/-- One step of a search; none if no frame is left. -/
def step (digraph : Digraph n) (search : Search n) : Option (Search n) :=
  match search.frames with
  | [] => none
  | ⟨place, []⟩ :: frames => some (leave digraph { search with frames } place)
  | ⟨place, successor :: rest⟩ :: frames =>
    some (look digraph { search with frames := ⟨place, rest⟩ :: frames } place successor)

/-! ## A run ends -/

/-- The number of places not yet discovered. -/
def unseen (search : Search n) : Nat :=
  search.number.countP Option.isNone

/-- The number of steps that the frames take if nothing more is discovered. -/
def pending (search : Search n) : Nat :=
  search.frames.foldr (fun frame total => frame.rest.length + 1 + total) 0

theorem unseen_discover_lt (digraph : Digraph n) (search : Search n) (place : Fin n)
    (h : search.number.get place = none) :
    (search.discover digraph place).unseen < search.unseen := by
  have hold : search.number[place.val].isNone = true := by
    rw [Row.get_eq_getElem] at h
    simp [h]
  have hpos : 0 < search.number.countP Option.isNone :=
    Vector.countP_pos_iff.2 ⟨search.number[place.val], Vector.getElem_mem _, hold⟩
  simp only [unseen, discover]
  rw [Vector.countP_set, if_pos hold, if_neg (by simp)]
  omega

@[simp] theorem number_lower (search : Search n) (place : Fin n) (bound : Nat) :
    (search.lower place bound).number = search.number := rfl

@[simp] theorem frames_lower (search : Search n) (place : Fin n) (bound : Nat) :
    (search.lower place bound).frames = search.frames := rfl

@[simp] theorem number_complete (digraph : Digraph n) (search : Search n) (place : Fin n)
    (first : Nat) : (search.complete digraph place first).number = search.number := rfl

@[simp] theorem frames_complete (digraph : Digraph n) (search : Search n) (place : Fin n)
    (first : Nat) : (search.complete digraph place first).frames = search.frames := rfl

theorem number_leave (digraph : Digraph n) (search : Search n) (place : Fin n) :
    (search.leave digraph place).number = search.number := by
  unfold leave
  cases h : search.frames <;> simp only <;> split <;> simp

theorem frames_leave (digraph : Digraph n) (search : Search n) (place : Fin n) :
    (search.leave digraph place).frames = search.frames := by
  unfold leave
  cases h : search.frames <;> simp only <;> split <;> simp [h]

/-- A step discovers a place, or leaves the discovered places and takes one off the pending
steps. -/
theorem measure_step {digraph : Digraph n} {search after : Search n}
    (h : search.step digraph = some after) :
    after.unseen < search.unseen ∨
      after.unseen = search.unseen ∧ after.pending < search.pending := by
  unfold step at h
  split at h
  · cases h
  · next place frames hf =>
    cases h
    right
    simp [unseen, pending, number_leave, frames_leave, hf]
  · next place successor rest frames hf =>
    cases h
    unfold look
    split
    · next hn => exact .inl (unseen_discover_lt digraph _ successor hn)
    · right
      split <;> simp [unseen, pending, hf]

/-- Runs a search until no frame is left. -/
def run (digraph : Digraph n) (search : Search n) : Search n :=
  match _h : search.step digraph with
  | none => search
  | some after => run digraph after
termination_by (search.unseen, search.pending)
decreasing_by
  rcases measure_step _h with h | ⟨h₁, h₂⟩
  · exact Prod.Lex.left _ _ h
  · rw [h₁]
    exact Prod.Lex.right _ h₂

/-- Runs a search from a place, unless the place has been discovered already. -/
def runFrom (digraph : Digraph n) (search : Search n) (root : Fin n) : Search n :=
  if (search.number.get root).isSome then search
  else run digraph (search.discover digraph root)

/-- The search through the whole digraph, from every place in order. -/
def through (digraph : Digraph n) : Search n :=
  (List.finRange n).foldl (runFrom digraph) start

end Search

/-- The strongly connected components that hold a cycle, in the order of discovery. -/
def Digraph.components {n : Nat} (digraph : Digraph n) : List (List (Fin n)) :=
  ((Search.through digraph).found.mergeSort (·.first ≤ ·.first)).map (·.members)

/-! ## Import cycles -/

namespace Graph

/-- The direct edges between places. -/
def directDigraph (graph : Graph) : Digraph graph.nodes.length :=
  .ofArrows (graph.arrows (· == .direct))

/-- The import cycles of a graph, each as the paths of its files. -/
def cyclesUnchecked (graph : Graph) : List (List String) :=
  graph.directDigraph.components.map fun members => members.map graph.nodes.get

/-- The import cycles of a graph, provided that it is well formed. -/
def cycles (graph : Graph) : Except Error (List (List String)) := do
  graph.check.mapError Defect.toError
  return graph.cyclesUnchecked

end Graph

end ImportAtlas
