import ImportAtlas.Dictionary

/-!
# Impact of a change

The impact of changing a file is the set of files that depend on it, each with its distance: the
least number of imports from it to the changed file.

## Main definitions

* `Impact`: a changed file and its dependents with their distances
* `Impact.byDistance`: the dependents of each distance, nearest first
* `BlastRadius`: the size of an impact
-/

namespace ImportAtlas

/-- A changed file and the files that depend on it. -/
structure Impact where
  /-- The changed file. -/
  target : String
  /-- The distance of each dependent. -/
  dependents : Dictionary Nat
  deriving DecidableEq

namespace Impact

variable (impact : Impact)

/-- The number of dependents. -/
def size : Nat := impact.dependents.size

/-- Whether nothing depends on the changed file. -/
def isEmpty : Bool := impact.dependents.isEmpty

/-- The dependents of a distance, in the order of their paths. -/
def atDistance (distance : Nat) : List String :=
  (impact.dependents.entries.filter (·.2 == distance)).map (·.1)

/-- The files that import the changed file. -/
def directDependents : List String := impact.atDistance 1

/-- The distances that occur, each once, the least first. -/
def distances : List Nat :=
  (impact.dependents.values.mergeSort (· ≤ ·)).eraseDups

/-- The dependents of each distance, nearest first. -/
def byDistance : List (Nat × List String) :=
  impact.distances.map fun distance => (distance, impact.atDistance distance)

/-- The dependents with their distances, nearest first and then in the order of their paths. -/
def nearestFirst : List (String × Nat) :=
  impact.byDistance.flatMap fun group => group.2.map fun path => (path, group.1)

/-- The largest distance, zero if there are no dependents. -/
def maxDistance : Nat :=
  impact.dependents.values.foldl max 0

end Impact

/-- The size of the impact of changing a file. -/
structure BlastRadius where
  path : String
  dependents : Nat
  directDependents : Nat
  maxDistance : Nat
  deriving DecidableEq, Repr

/-- The size of an impact. -/
def Impact.blastRadius (impact : Impact) : BlastRadius where
  path := impact.target
  dependents := impact.size
  directDependents := impact.directDependents.length
  maxDistance := impact.maxDistance

end ImportAtlas
