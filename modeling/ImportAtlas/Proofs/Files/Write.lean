import ImportAtlas.Files.Tree
import ImportAtlas.Proofs.Dictionary
import ImportAtlas.Proofs.Outcome

/-!
# Writing files

A text is written at the place that a route leads to, if there is no directory, and no other place
changes. On its way a route only goes through directories, so it is walked in the same way afterwards:
the locations are the same as before, except that those at the place of the text have the text now. So
what has been written is read back.

## Main definitions

* `FileTree.Location.Known`: the locations that show what the tree has at their names
* `FileTree.IsName`: the texts that name something in a directory
* `FileTree.Location.overlay`: a location as it is once a text has been put somewhere
* `FileTree.Receives`: when a file receives a text and nothing else changes

## Main results

* `write_eq_ok_iff`: what is written where
* `locate_put`: where a route leads after a text has been put somewhere
* `read_write`: what has been written is read back
* `Receives.of_write`: writing changes the file written, and nothing else
-/

namespace ImportAtlas.FileTree

variable {tree : FileTree}

/-! ## Places -/

theorem node?_of_ne_nil (tree : FileTree) {names : List String} (h : names ≠ []) :
    tree.node? names = tree.nodes.get? (placeOf names) := by
  cases names with
  | nil => exact absurd rfl h
  | cons name names => rfl

/-- Putting a node at a place changes nothing elsewhere. -/
theorem get?_put (names : List String) (node : FileNode) (place : String) :
    (tree.put names node).nodes.get? place =
      if place = placeOf names then some node else tree.nodes.get? place :=
  Dictionary.get?_insert _ _ _ _

/-! ## Walking -/

/-- A location that is a directory, or shows what the tree has at its names. The directory that routes
start from and those that `..` leads to are not looked up. -/
def Location.Known (tree : FileTree) (location : Location) : Prop :=
  location.node = some .directory ∨ location.node = tree.nodes.get? (placeOf location.names)

/-- **What a step can do**: it starts from a directory, and stays there, goes to the directory around
it, or looks up one more name. -/
theorem step_eq_ok_iff {location next : Location} {component : String} :
    tree.step location component = .ok next ↔ location.node = some .directory ∧
      (component = "." ∧ next = location ∨
        component = ".." ∧ next = ⟨location.names.dropLast, some .directory⟩ ∨
        component ≠ "." ∧ component ≠ ".." ∧ component.utf8ByteSize ≤ maxNameBytes ∧
          next = ⟨location.names ++ [component],
            tree.nodes.get? (placeOf (location.names ++ [component]))⟩) := by
  have hlookup := tree.node?_of_ne_nil
    (List.append_ne_nil_of_right_ne_nil location.names (List.cons_ne_nil component []))
  unfold step
  rw [eq_comm (a := next)]
  rcases hnode : location.node with _ | (_ | _ | _)
  · simp
  · -- The three cases exclude each other, as the two components with a meaning are different.
    by_cases hdot : component = "."
    · simp [hdot]
    · by_cases hup : component = ".."
      · simp [hup, eq_comm]
      · by_cases hlong : maxNameBytes < component.utf8ByteSize
        · simp [hdot, hup, hlong, Nat.not_le.mpr hlong]
        · simp [hdot, hup, hlong, Nat.le_of_not_lt hlong, hlookup, eq_comm]
  · simp
  · simp

theorem Location.Known.step {location next : Location} {component : String}
    (h : tree.step location component = .ok next) : next.Known tree := by
  obtain ⟨hnode, ⟨-, rfl⟩ | ⟨-, rfl⟩ | ⟨-, -, -, rfl⟩⟩ := step_eq_ok_iff.mp h
  · exact .inl hnode
  · exact .inl rfl
  · exact .inr rfl

theorem Location.Known.foldlM {components : List String} {location last : Location}
    (hknown : location.Known tree) (h : components.foldlM tree.step location = .ok last) :
    last.Known tree := by
  induction components generalizing location with
  | nil =>
    obtain rfl := Except.ok.inj h
    exact hknown
  | cons component components ih =>
    rw [List.foldlM_cons, Outcome.bind_eq_ok_iff] at h
    obtain ⟨next, hnext, hrest⟩ := h
    exact ih (.step hnext) hrest

/-- The location that a route starts from. -/
def start (tree : FileTree) (route : String) : Location :=
  if Route.isRooted route then ⟨[], some .directory⟩ else ⟨tree.workingDirectory, some .directory⟩

theorem node_start (tree : FileTree) (route : String) :
    (tree.start route).node = some .directory := by
  unfold start
  split <;> rfl

/-- A route leads somewhere if it may be walked at all and its components can be walked. -/
theorem locate_eq_ok_iff {route : String} {location : Location} :
    tree.locate route = .ok location ↔
      (route.isEmpty = false ∧ route.toList.contains '\x00' = false ∧
        route.utf8ByteSize ≤ maxRouteBytes) ∧
      (Route.components route).foldlM tree.step (tree.start route) = .ok location := by
  unfold locate walk start
  by_cases hempty : route.isEmpty = true
  · simp [hempty]
  · rw [if_neg hempty]
    by_cases hnull : route.toList.contains '\x00' = true
    · rw [if_pos hnull, hnull]
      simp
    · rw [if_neg hnull]
      by_cases hlong : maxRouteBytes < route.utf8ByteSize
      · rw [if_pos hlong]
        simp [Nat.not_le.mpr hlong]
      · rw [if_neg hlong]
        have hroute : route.isEmpty = false ∧ route.toList.contains '\x00' = false ∧
            route.utf8ByteSize ≤ maxRouteBytes :=
          ⟨eq_false_of_ne_true hempty, eq_false_of_ne_true hnull, Nat.le_of_not_lt hlong⟩
        exact (and_iff_right hroute).symm

/-- The texts that name something in a directory. -/
structure IsName (name : String) : Prop where
  components_eq : Route.components name = [name]
  rooted_eq : Route.isRooted name = false
  slash_eq : Route.endsWithSlash name = false
  admissible : name.isEmpty = false ∧ name.toList.contains '\x00' = false
  length_le : name.utf8ByteSize ≤ maxNameBytes
  ne_dots : name ≠ "." ∧ name ≠ ".."

instance (name : String) : Decidable (IsName name) :=
  decidable_of_iff (Route.components name = [name] ∧ Route.isRooted name = false ∧
    Route.endsWithSlash name = false ∧
    (name.isEmpty = false ∧ name.toList.contains '\x00' = false) ∧
    name.utf8ByteSize ≤ maxNameBytes ∧ name ≠ "." ∧ name ≠ "..")
    ⟨fun ⟨h₁, h₂, h₃, h₄, h₅, h₆⟩ => ⟨h₁, h₂, h₃, h₄, h₅, h₆⟩,
      fun h => ⟨h.1, h.2, h.3, h.4, h.5, h.6⟩⟩

/-- A name leads from the top directory to what it names there. -/
theorem locate_name {name : String} (hname : IsName name) (htop : tree.workingDirectory = []) :
    tree.locate name = .ok ⟨[name], tree.nodes.get? name⟩ := by
  obtain ⟨hcomponents, hrooted, -, ⟨hempty, hnull⟩, hlength, hdot, hup⟩ := hname
  have hroute : name.utf8ByteSize ≤ maxRouteBytes :=
    Nat.le_trans hlength (by decide)
  have hplace : placeOf [name] = name := by
    simp [placeOf, Text.joinWith, Text.join]
  refine locate_eq_ok_iff.mpr ⟨⟨hempty, hnull, hroute⟩, ?_⟩
  have hstart : tree.start name = ⟨[], some .directory⟩ := by
    simp [start, hrooted, htop]
  have hstep : tree.step ⟨[], some .directory⟩ name = .ok ⟨[name], tree.nodes.get? name⟩ := by
    refine step_eq_ok_iff.mpr ⟨rfl, .inr (.inr ⟨hdot, hup, hlength, ?_⟩)⟩
    rw [List.nil_append, hplace]
  rw [hcomponents, hstart, List.foldlM_cons, hstep]
  rfl

theorem find_name {name : String} (hname : IsName name) (htop : tree.workingDirectory = []) :
    tree.find name = (tree.nodes.get? name).elim (.error .notFound) .ok := by
  unfold find
  rw [locate_name hname htop]
  rcases tree.nodes.get? name with _ | (_ | _ | _) <;>
    simp [hname.slash_eq, bind, Except.bind, pure, Except.pure]

theorem read_name {name text : String} (hname : IsName name) (htop : tree.workingDirectory = [])
    (hget : tree.nodes.get? name = some (.text text)) : tree.read name = .ok text := by
  unfold read
  rw [find_name hname htop, hget]
  rfl

/-! ## Walking after a text has been put somewhere -/

/-- The location as it is once a text has been put at a place: if it is there and no directory, it has
the text. -/
def Location.overlay (place content : String) (location : Location) : Location :=
  if location.node ≠ some .directory ∧ placeOf location.names = place then
    { location with node := some (.text content) }
  else location

theorem Location.overlay_of_directory {location : Location} (place content : String)
    (h : location.node = some .directory) : location.overlay place content = location := by
  simp [overlay, h]

section Put

variable {names : List String} (content : String)
  (hfile : tree.nodes.get? (placeOf names) ≠ some .directory)

include hfile

/-- A step leads to the same names as before. -/
theorem step_put {location next : Location} {component : String}
    (h : tree.step location component = .ok next) :
    (tree.put names (.text content)).step (location.overlay (placeOf names) content) component =
      .ok (next.overlay (placeOf names) content) := by
  obtain ⟨hnode, hnext⟩ := step_eq_ok_iff.mp h
  rw [location.overlay_of_directory _ _ hnode]
  refine step_eq_ok_iff.mpr ⟨hnode, ?_⟩
  rcases hnext with ⟨hdot, rfl⟩ | ⟨hup, rfl⟩ | ⟨hdot, hup, hlength, rfl⟩
  · exact .inl ⟨hdot, Location.overlay_of_directory _ _ hnode⟩
  · exact .inr (.inl ⟨hup, Location.overlay_of_directory _ _ rfl⟩)
  · -- The name is looked up, and is the changed one or another one.
    refine .inr (.inr ⟨hdot, hup, hlength, ?_⟩)
    rw [get?_put]
    unfold Location.overlay
    by_cases hplace : placeOf (location.names ++ [component]) = placeOf names
    · simp [hplace, hfile]
    · simp [hplace]

theorem foldlM_step_put {components : List String} {location last : Location}
    (h : components.foldlM tree.step location = .ok last) :
    components.foldlM (tree.put names (.text content)).step
        (location.overlay (placeOf names) content) =
      .ok (last.overlay (placeOf names) content) := by
  induction components generalizing location with
  | nil =>
    obtain rfl := Except.ok.inj h
    rfl
  | cons component components ih =>
    rw [List.foldlM_cons, Outcome.bind_eq_ok_iff] at h
    obtain ⟨next, hnext, hrest⟩ := h
    rw [List.foldlM_cons, step_put content hfile hnext]
    exact ih hrest

/-- **A route leads to the same names as before**, and what is there is the same unless the text has
been put there. -/
theorem locate_put {route : String} {location : Location} (h : tree.locate route = .ok location) :
    (tree.put names (.text content)).locate route =
      .ok (location.overlay (placeOf names) content) := by
  obtain ⟨hroute, hwalk⟩ := locate_eq_ok_iff.mp h
  refine locate_eq_ok_iff.mpr ⟨hroute, ?_⟩
  have hafter := foldlM_step_put content hfile hwalk
  rwa [Location.overlay_of_directory _ _ (tree.node_start route)] at hafter

end Put

/-! ## Writing -/

/-- **What is written where**: a text at the place of a route that does not end with a slash, unless
there is a directory. -/
theorem write_eq_ok_iff {route content : String} {after : FileTree} :
    tree.write route content = .ok after ↔ Route.endsWithSlash route = false ∧
      ∃ location, tree.locate route = .ok location ∧ location.node ≠ some .directory ∧
        after = tree.put location.names (.text content) := by
  unfold write
  cases hslash : Route.endsWithSlash route with
  | true =>
    rw [if_pos rfl, Outcome.bind_eq_ok_iff]
    constructor
    · rintro ⟨-, -, h⟩
      cases h
    · rintro ⟨h, -⟩
      cases h
  | false =>
    rw [if_neg Bool.false_ne_true, Outcome.bind_eq_ok_iff, and_iff_right rfl]
    refine exists_congr fun location => and_congr_right fun _ => ?_
    by_cases hnode : location.node = some .directory
    · simp [hnode]
    · rw [if_neg (by simpa using hnode), and_iff_right hnode]
      constructor
      · intro h
        exact (Except.ok.inj h).symm
      · rintro rfl
        rfl

/-- What has no directory at the end of its route has none at its place. -/
theorem get?_ne_directory {route : String} {location : Location}
    (h : tree.locate route = .ok location) (hnode : location.node ≠ some .directory) :
    tree.nodes.get? (placeOf location.names) ≠ some .directory := by
  obtain ⟨-, hwalk⟩ := locate_eq_ok_iff.mp h
  have hknown : location.Known tree := .foldlM (.inl (tree.node_start route)) hwalk
  rcases hknown with hdirectory | hlookup
  · exact absurd hdirectory hnode
  · rwa [← hlookup]

/-- **What has been written is read back.** -/
theorem read_write {route content : String} {after : FileTree}
    (h : tree.write route content = .ok after) : after.read route = .ok content := by
  obtain ⟨hslash, location, hlocate, hnode, rfl⟩ := write_eq_ok_iff.mp h
  have hafter := locate_put content (get?_ne_directory hlocate hnode) hlocate
  unfold Location.overlay at hafter
  rw [if_pos ⟨hnode, rfl⟩] at hafter
  unfold read find
  rw [hafter]
  simp [hslash, bind, Except.bind, pure, Except.pure]

/-- When a file receives a text and nothing else changes. -/
structure Receives (before : FileTree) (route content : String) (after : FileTree) : Prop where
  read_eq : after.read route = .ok content
  /-- The file is the only one that changes, and is not put in place of a directory. -/
  elsewhere : ∃ location, before.locate route = .ok location ∧ location.node ≠ some .directory ∧
    ∀ place, place ≠ placeOf location.names → after.nodes.get? place = before.nodes.get? place
  workingDirectory_eq : after.workingDirectory = before.workingDirectory

/-- **Writing changes the file written, and nothing else.** -/
theorem Receives.of_write {route content : String} {after : FileTree}
    (h : tree.write route content = .ok after) : tree.Receives route content after := by
  refine ⟨read_write h, ?_, ?_⟩ <;>
    obtain ⟨-, location, hlocate, hnode, rfl⟩ := write_eq_ok_iff.mp h
  · refine ⟨location, hlocate, hnode, ?_⟩
    intro place hplace
    rw [get?_put, if_neg hplace]
  · rfl

end ImportAtlas.FileTree
