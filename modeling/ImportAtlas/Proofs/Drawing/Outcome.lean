import ImportAtlas.Proofs.Drawing.Reading
import ImportAtlas.Proofs.Table.Listing
import Mathlib.Data.List.FinRange
import Mathlib.Data.List.Rotate

/-!
# Reading what is drawn of cycles and impacts

The drawing of cycles has a block for each of them, with an edge from each file to the one behind it,
the first file being behind the last. The drawing of an impact has a node for the changed file and an
edge for each dependent, labelled with its distance. Both are read back, whatever characters the paths
have, so different outcomes have different drawings.

## Main definitions

* `Drawing.around`: the pairs of files that follow each other on a cycle
* `Drawing.clusters`: the edges of each cluster that statements draw
* `Drawing.impact?`: the changed file and its dependents that statements draw

## Main results

* `Drawing.writes_cyclesDot`, `Drawing.writes_impactDot`: the statements of a drawing
* `Drawing.neighbours_eq`: the edges of a cycle are the pairs of files that follow each other
* `Drawing.drawings_readable`: names, cycles and impacts are read back
-/

namespace ImportAtlas.Drawing

open Render (dotQuoted dotOpen dotClose neighbours cycleDot cyclesDot impactDot)

/-- The statements before the end of a block. -/
def block (statements : List Statement) : List Statement :=
  statements.takeWhile (· ≠ .finish)

/-- The ends of an edge. -/
def edge? : Statement → Option (String × String)
  | .edge source target _ => some (source, target)
  | _ => none

/-- The edges of each cluster. -/
def clusters : List Statement → List (List (String × String))
  | [] => []
  | .start kind _ :: rest =>
    if kind = "subgraph" then (block rest).filterMap edge? :: clusters rest else clusters rest
  | _ :: rest => clusters rest

/-- The dependent of a changed file that an edge stands for, with the number it is labelled with. -/
def dependent? (target : String) : Statement → Option (String × Nat)
  | .edge source node (some (_, label)) =>
    if node = target then label.toNat?.map fun distance => (source, distance) else none
  | _ => none

/-- The changed file, and its dependents with their distances. -/
def impact? : List Statement → Option (String × List (String × Nat))
  | .start _ _ :: .node target _ _ :: rest =>
    ((block rest).mapM (dependent? target)).map fun dependents => (target, dependents)
  | _ => none

theorem block_append {statements : List Statement} (h : .finish ∉ statements)
    (rest : List Statement) : block (statements ++ .finish :: rest) = statements := by
  have hbefore : ∀ statement ∈ statements, decide (statement ≠ .finish) = true := by
    intro statement hmem
    apply decide_eq_true
    rintro rfl
    exact h hmem
  unfold block
  rw [List.takeWhile_append_of_pos hbefore, List.takeWhile_cons_of_neg (by simp),
    List.append_nil]

/-! ## What follows on a cycle -/

/-- Each file of a cycle with the one behind it, the first being behind the last. -/
def around (cycle : List String) : List (String × String) :=
  (List.finRange cycle.length).map fun place =>
    (cycle.get place, cycle.get ⟨(place + 1) % cycle.length, Nat.mod_lt _ place.pos⟩)

example : around ["a", "b", "c"] = [("a", "b"), ("b", "c"), ("c", "a")] := by decide

theorem map_fst_around (cycle : List String) : (around cycle).map (·.1) = cycle := by
  rw [around, List.map_map]
  exact List.map_get_finRange cycle

/-- **The edges of a cycle are the pairs of files that follow each other.** -/
theorem neighbours_eq (cycle : List String) : neighbours cycle = around cycle := by
  have hrotate : neighbours cycle = cycle.zip (cycle.rotate 1) := by
    cases cycle with
    | nil => rfl
    | cons path rest =>
      rw [List.rotate_eq_drop_append_take (Nat.succ_pos _)]
      rfl
  rw [hrotate]
  apply List.ext_getElem
  · simp [around]
  · intro place hplace hplace'
    simp [around, List.getElem_rotate]

/-! ## The drawing of cycles -/

/-- The statements of the block of a cycle. -/
def cycleStatements (cycle : List String) (place : Nat) : List Statement :=
  [.start "subgraph" ("cluster_" ++ toString place),
    .setting "label" ("cycle " ++ toString (place + 1))] ++
    (neighbours cycle).map (fun (path, next) => .edge path next none) ++ [.finish]

/-- The statements of the drawing of cycles. -/
def cyclesStatements (cycles : List (List String)) : List Statement :=
  .start "digraph" "cycles" ::
    cycles.zipIdx.flatMap (fun (cycle, place) => cycleStatements cycle place) ++ [.finish]

/-- A number behind some characters needs nothing taken off between quotes. -/
theorem dotQuoted_append_digits {before : String} (h : ∀ c ∈ before.toList, c ≠ '"' ∧ c ≠ '\\')
    (number : Nat) :
    dotQuoted (before ++ toString number) = "\"" ++ (before ++ toString number) ++ "\"" := by
  apply dotQuoted_eq
  intro c hc
  rw [not_or]
  rcases List.mem_append.mp (String.toList_append ▸ hc) with hbefore | hdigit
  · exact h c hbefore
  · constructor
    · rintro rfl
      exact Listing.not_mem_digits (by decide) number hdigit
    · rintro rfl
      exact Listing.not_mem_digits (by decide) number hdigit

theorem isWord_of_mem_digits {number : Nat} {c : Char} (hc : c ∈ (toString number).toList) :
    isWord c = true := by
  simp [isWord, Char.isAlphanum, Listing.isDigit_of_mem_digits hc]

theorem writes_clusterOpen (place : Nat) :
    Writes (dotOpen ("    subgraph cluster_" ++ toString place))
      [.start "subgraph" ("cluster_" ++ toString place)] := by
  have hword : Scans .between "    subgraph cluster_" (.word "cluster_".toList)
      [.word "subgraph"] := rfl
  have hdigits : Scans (.word "cluster_".toList) (toString place) _ [] :=
    scans_word _ fun _ => isWord_of_mem_digits
  have hend : ∀ cs : List Char, Scans (.word cs) " \x7b\n" .between
      [.word (String.ofList cs), .mark '\x7b'] := fun _ => rfl
  -- The digits go on with the word that begins before them.
  have hname : String.ofList ("cluster_".toList ++ (toString place).toList) =
      "cluster_" ++ toString place := by
    rw [← String.toList_append, String.ofList_toList]
  have hopen := (hword.append hdigits).append (hend _)
  rw [hname] at hopen
  exact .of_scans hopen

theorem writes_clusterLabel (place : Nat) :
    Writes ("        label = \"cycle " ++ toString (place + 1) ++ "\";\n")
      [.setting "label" ("cycle " ++ toString (place + 1))] := by
  -- There is nothing to take off in the label, so it is a quoted name.
  have htext : "        label = \"cycle " ++ toString (place + 1) ++ "\";\n" =
      "        label = " ++ dotQuoted ("cycle " ++ toString (place + 1)) ++ ";\n" := by
    rw [dotQuoted_append_digits (by simp)]
    apply String.toList_injective
    simp
  have hkey : Scans .between "        label = " .between [.word "label", .mark '='] := rfl
  have hend : Scans .between ";\n" .between [.mark ';'] := rfl
  rw [htext]
  exact .of_scans ((hkey.append (scans_dotQuoted _)).append hend)

theorem writes_edge (source target : String) :
    Writes ("        " ++ dotQuoted source ++ " -> " ++ dotQuoted target ++ ";\n")
      [.edge source target none] := by
  have hindent : Scans .between "        " .between [] := rfl
  have harrow : Scans .between " -> " .between [.mark '-', .mark '>'] := rfl
  have hend : Scans .between ";\n" .between [.mark ';'] := rfl
  exact .of_scans ((((hindent.append (scans_dotQuoted source)).append harrow).append
    (scans_dotQuoted target)).append hend)

theorem writes_cycleDot (cycle : List String) (place : Nat) :
    Writes (cycleDot cycle place) (cycleStatements cycle place) := by
  have hedges := Writes.join (neighbours cycle) fun pair _ => writes_edge pair.1 pair.2
  have hend : Writes ("    " ++ dotClose) [.finish] := rfl
  have hblock := (((writes_clusterOpen place).append (writes_clusterLabel place)).append
    hedges).append hend
  rw [← List.map_eq_flatMap] at hblock
  simp only [String.append_assoc] at hblock
  simp only [cycleDot, String.append_assoc]
  exact hblock

/-- **The statements of the drawing of cycles.** -/
theorem writes_cyclesDot (cycles : List (List String)) :
    Writes (cyclesDot cycles) (cyclesStatements cycles) := by
  have hopen : Writes (dotOpen "digraph cycles") [.start "digraph" "cycles"] := rfl
  have hcycles := Writes.join cycles.zipIdx fun entry _ => writes_cycleDot entry.1 entry.2
  have hend : Writes dotClose [.finish] := rfl
  exact (hopen.append hcycles).append hend

/-- The edges of a block start no cluster. -/
theorem clusters_edges_append (pairs : List (String × String)) (rest : List Statement) :
    clusters (pairs.map (fun (path, next) => .edge path next none) ++ rest) = clusters rest := by
  induction pairs with
  | nil => rfl
  | cons pair pairs ih => exact ih

theorem clusters_cycleStatements_append (cycle : List String) (place : Nat)
    (rest : List Statement) :
    clusters (cycleStatements cycle place ++ rest) = around cycle :: clusters rest := by
  -- Between the start of the cluster and its end there are its label and its edges only.
  let edges : List Statement := (neighbours cycle).map fun (path, next) => .edge path next none
  let label : Statement := .setting "label" ("cycle " ++ toString (place + 1))
  have hedges : edges.filterMap edge? = neighbours cycle := by
    rw [List.filterMap_map]
    exact List.filterMap_some
  have hfinish : .finish ∉ label :: edges := by simp [label, edges]
  have hblock : block (label :: edges ++ .finish :: rest) = label :: edges :=
    block_append hfinish rest
  calc clusters (cycleStatements cycle place ++ rest)
      = (block (label :: edges ++ .finish :: rest)).filterMap edge? ::
          clusters (label :: edges ++ .finish :: rest) := by
        simp [cycleStatements, clusters, label, edges]
    _ = neighbours cycle :: clusters (edges ++ .finish :: rest) := by
        rw [hblock]
        exact congrArg (· :: _) hedges
    _ = around cycle :: clusters rest := by
        rw [neighbours_eq, clusters_edges_append]
        rfl

/-- **The clusters are read back**, from whatever place on they are counted. -/
theorem clusters_flatMap_append (cycles : List (List String)) (place : Nat)
    (rest : List Statement) :
    clusters ((cycles.zipIdx place).flatMap (fun (cycle, place) => cycleStatements cycle place) ++
      rest) = cycles.map around ++ clusters rest := by
  induction cycles generalizing place with
  | nil => rfl
  | cons cycle cycles ih =>
    rw [List.zipIdx_cons, List.flatMap_cons, List.append_assoc, clusters_cycleStatements_append,
      ih]
    rfl

theorem clusters_cyclesStatements (cycles : List (List String)) :
    clusters (cyclesStatements cycles) = cycles.map around := by
  have hclusters := clusters_flatMap_append cycles 0 [.finish]
  simpa [cyclesStatements, clusters] using hclusters

/-! ## The drawing of an impact -/

/-- The statements of the drawing of an impact. -/
def impactStatements (impact : Impact) : List Statement :=
  [.start "digraph" "impact", .node impact.target "shape" "box"] ++
    impact.dependents.entries.map (fun (path, distance) =>
      .edge path impact.target (some ("label", toString distance))) ++ [.finish]

theorem writes_target (target : String) :
    Writes ("    " ++ dotQuoted target ++ " [shape = box];\n") [.node target "shape" "box"] := by
  have hindent : Scans .between "    " .between [] := rfl
  have hshape : Scans .between " [shape = box];\n" .between
      [.mark '[', .word "shape", .mark '=', .word "box", .mark ']', .mark ';'] := rfl
  exact .of_scans ((hindent.append (scans_dotQuoted target)).append hshape)

theorem writes_dependent (path target : String) (distance : Nat) :
    Writes ("    " ++ dotQuoted path ++ " -> " ++ dotQuoted target ++ " [label = \"" ++
        toString distance ++ "\"];\n")
      [.edge path target (some ("label", toString distance))] := by
  have hnumber : dotQuoted (toString distance) = "\"" ++ toString distance ++ "\"" := by
    have hdigits := @dotQuoted_append_digits "" (by simp) distance
    simpa using hdigits
  have htext : " [label = \"" ++ toString distance ++ "\"];\n" =
      " [label = " ++ dotQuoted (toString distance) ++ "];\n" := by
    rw [hnumber]
    apply String.toList_injective
    simp
  have hindent : Scans .between "    " .between [] := rfl
  have harrow : Scans .between " -> " .between [.mark '-', .mark '>'] := rfl
  have hkey : Scans .between " [label = " .between [.mark '[', .word "label", .mark '='] := rfl
  have hend : Scans .between "];\n" .between [.mark ']', .mark ';'] := rfl
  have hlabel := (hkey.append (scans_dotQuoted (toString distance))).append hend
  rw [← htext] at hlabel
  have hedge := (((hindent.append (scans_dotQuoted path)).append harrow).append
    (scans_dotQuoted target)).append hlabel
  apply Writes.of_scans
  simp only [String.append_assoc] at hedge ⊢
  exact hedge

/-- **The statements of the drawing of an impact.** -/
theorem writes_impactDot (impact : Impact) :
    Writes (impactDot impact) (impactStatements impact) := by
  have hopen : Writes (dotOpen "digraph impact") [.start "digraph" "impact"] := rfl
  have hdependents := Writes.join impact.dependents.entries fun entry _ =>
    writes_dependent entry.1 impact.target entry.2
  have hend : Writes dotClose [.finish] := rfl
  have hdrawing := ((hopen.append (writes_target impact.target)).append hdependents).append hend
  rw [← List.map_eq_flatMap] at hdrawing
  simp only [String.append_assoc] at hdrawing
  simp only [impactDot, String.append_assoc]
  exact hdrawing

/-- **The changed file and its dependents are read back.** -/
theorem impact?_impactStatements (impact : Impact) :
    impact? (impactStatements impact) = some (impact.target, impact.dependents.entries) := by
  let edges : List Statement := impact.dependents.entries.map fun (path, distance) =>
    .edge path impact.target (some ("label", toString distance))
  have hfinish : .finish ∉ edges := by simp [edges]
  have hdependent : ∀ entry : String × Nat,
      dependent? impact.target
        (.edge entry.1 impact.target (some ("label", toString entry.2))) = some entry := by
    intro entry
    show (if impact.target = impact.target then _ else none) = _
    rw [if_pos rfl, show (toString entry.2).toNat? = some entry.2 from Nat.toNat?_repr entry.2]
    rfl
  have hdependents : edges.mapM (dependent? impact.target) = some impact.dependents.entries := by
    simp only [edges, List.mapM_map, Function.comp_def, hdependent]
    exact (List.mapM_pure (m := Option) (f := id)).trans (congrArg some (List.map_id _))
  show ((block (edges ++ [.finish])).mapM (dependent? impact.target)).map _ = _
  rw [block_append hfinish [], hdependents]
  rfl

/-! ## What is drawn is read back -/

theorem read_cyclesDot (cycles : List (List String)) :
    (read (cyclesDot cycles)).map clusters = some (cycles.map around) := by
  rw [(writes_cyclesDot cycles).read, Option.map_some, clusters_cyclesStatements]

theorem read_impactDot (impact : Impact) :
    (read (impactDot impact)).bind impact? = some (impact.target, impact.dependents.entries) := by
  rw [(writes_impactDot impact).read, Option.bind_some, impact?_impactStatements]

theorem around_injective : Function.Injective around := by
  intro cycle other h
  rw [← map_fst_around cycle, h, map_fst_around]

/-- **What is drawn is read back**, whatever characters the paths have. The closing quote of a
quoted name is its last character, and what stands between means the name. The drawing of cycles has
a cluster for each of them, with an edge from each file to the one behind it. The drawing of an impact
shows the changed file and each dependent with its distance. So different cycles have different
drawings, and different impacts have. -/
theorem drawings_readable :
    (∀ s : String, ∃ inner : List Char,
      (dotQuoted s).toList = '"' :: (inner ++ ['"']) ∧
      IsLeast {place | 0 < place ∧ IsClosing (dotQuoted s).toList place} (inner.length + 1) ∧
      undo inner = s.toList) ∧
    (∀ cycles : List (List String),
      (read (cyclesDot cycles)).map clusters = some (cycles.map around)) ∧
    (∀ impact : Impact,
      (read (impactDot impact)).bind impact? =
        some (impact.target, impact.dependents.entries)) ∧
    Function.Injective cyclesDot ∧ Function.Injective impactDot := by
  refine ⟨?_, read_cyclesDot, read_impactDot, ?_, ?_⟩
  · intro s
    exact ⟨_, toList_dotQuoted s, isLeast_isClosing s, undo_escaped s.toList⟩
  · -- What is read of a drawing tells the cycles, and so does the drawing.
    intro cycles others h
    have hread := read_cyclesDot cycles
    rw [h, read_cyclesDot, Option.some.injEq] at hread
    exact (List.map_injective_iff.mpr around_injective hread).symm
  · intro impact other h
    have hread := read_impactDot impact
    rw [h, read_impactDot, Option.some.injEq, Prod.mk.injEq] at hread
    obtain ⟨htarget, hentries⟩ := hread
    cases impact
    cases other
    cases htarget
    cases Dictionary.ext hentries
    rfl

end ImportAtlas.Drawing
