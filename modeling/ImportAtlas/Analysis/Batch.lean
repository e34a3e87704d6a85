import ImportAtlas.Decimal.Binary

/-!
# Batches of work

A batch does the same work on every item of a list. Items are counted one at a time, in whatever
order, and a report shows the count, in words and as a percentage; the result of an item is
delivered to the place of the item. The outcome holds the results in the order of the items, or the
failure that was delivered first.

## Main definitions

* `Progress`: a report
* `Progress.percentage`: the share that is done, with six decimals
* `Batch`: what has been done so far
* `Batch.count`, `Batch.report`, `Batch.deliver`: one more item is counted, reported or delivered
* `Batch.outcome`: the results, or the first failure
-/

namespace ImportAtlas

/-- How far a batch has come. -/
structure Progress where
  current : Nat
  total : Nat
  message : String
  deriving DecidableEq, Repr

namespace Progress

/-- The report after `current` of `total` files. -/
def afterFiles (current total : Nat) : Progress where
  current := current
  total := total
  message := "Analyzed " ++ toString current ++ "/" ++ toString total ++ " files"

/-- The share that is done, in percent and with six decimals; zero if there is nothing to do. -/
def percentage (progress : Progress) : String :=
  Decimal.fixed 6 (Decimal.percentOf progress.current progress.total)

end Progress

/-- What has been done of a batch of `total` items. -/
structure Batch (ε β : Type) (total : Nat) where
  /-- The number of items counted, whether they went well or not. -/
  completed : Nat
  /-- The results by place. -/
  results : Vector (Option β) total
  /-- The failure that was delivered first. -/
  failure : Option ε
  /-- The reports, the latest first. -/
  log : List Progress

namespace Batch

variable {ε β : Type} {total : Nat}

/-- The batch of which nothing is done. -/
def start : Batch ε β total := ⟨0, Vector.replicate total none, none, []⟩

/-- The batch with one more item counted. -/
def count (batch : Batch ε β total) : Batch ε β total :=
  { batch with completed := batch.completed + 1 }

/-- The batch with one more report, which shows the count as it is. -/
def report (batch : Batch ε β total) : Batch ε β total :=
  { batch with log := .afterFiles batch.completed total :: batch.log }

/-- The batch with the result or the failure of the item of a place. -/
def deliver (batch : Batch ε β total) (place : Fin total) : Except ε β → Batch ε β total
  | .ok value => { batch with results := batch.results.set place (some value) place.isLt }
  | .error e => { batch with failure := batch.failure.or (some e) }

/-- The reports, in the order in which they were made. -/
def updates (batch : Batch ε β total) : List Progress := batch.log.reverse

/-- The results in the order of the items, or the first failure. -/
def outcome (batch : Batch ε β total) : Except ε (List β) :=
  match batch.failure with
  | some e => .error e
  | none => .ok (batch.results.toList.filterMap id)

end Batch

end ImportAtlas
