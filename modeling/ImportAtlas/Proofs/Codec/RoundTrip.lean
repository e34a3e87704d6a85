import ImportAtlas.Proofs.Codec.Graph
import ImportAtlas.Proofs.Codec.Repository
import ImportAtlas.Proofs.Codec.Settings
import Mathlib.Logic.Relation

/-!
# Round trips

Every value that the project writes is read back from what is written, in either layout and however
its texts, numbers and blanks are spelled. It is still read back when members and entries have been put
into another order, when members of unknown names have been added anywhere, and when members have been
taken out that hold what they are taken to hold when they are missing.

## Main definitions

* `Codec.RoundTrips`: values are read back from their texts, and from changed ones

## Main results

* `Codec.roundTrips_documents`: the codecs of all documents
-/

namespace ImportAtlas

open Relation (ReflTransGen)

namespace Codec

variable {α : Type}

/-- Values are read back from what is written, in either layout, and from every text of a document that
comes of it by changes. -/
structure RoundTrips (codec : Codec α) (shape : Shape) (InRange : α → Prop) : Prop where
  compact : ∀ value, InRange value → Json.read codec (codec.encode value).compact = .ok value
  pretty : ∀ value, InRange value → Json.read codec (codec.encode value).pretty = .ok value
  changed : ∀ value document s, InRange value →
    ReflTransGen (Change shape) (codec.encode value).document document → Json.Holds s document →
      Json.read codec s = .ok value

theorem Tolerates.changes {codec : Codec α} {shape : Shape} (h : codec.Tolerates shape)
    {d d' : Document} {value : α} (hchanges : ReflTransGen (Change shape) d d')
    (hread : codec.decode .json d = .ok value) : codec.decode .json d' = .ok value := by
  induction hchanges with
  | refl => exact hread
  | tail _ hchange ih => exact h _ _ _ hchange ih

theorem read_eq_of_changes {codec : Codec α} {shape : Shape} {value : α}
    (hvalue : codec.ReadsBack value) (htolerates : codec.Tolerates shape) {document : Document}
    {s : String} (hchanges : ReflTransGen (Change shape) (codec.encode value).document document)
    (hs : Json.Holds s document) : Json.read codec s = .ok value :=
  (Json.read_eq_of_holds codec hs).trans (htolerates.changes hchanges hvalue)

theorem roundTrips_of {codec : Codec α} {shape : Shape} {InRange : α → Prop}
    (hvalue : ∀ value, InRange value → codec.ReadsBack value) (htolerates : codec.Tolerates shape) :
    codec.RoundTrips shape InRange where
  compact value h := read_eq_of_changes (hvalue value h) htolerates .refl (Json.holds_compact _)
  pretty value h := read_eq_of_changes (hvalue value h) htolerates .refl (Json.holds_pretty _)
  changed value _ _ h := read_eq_of_changes (hvalue value h) htolerates

/-- **All documents make the round trip**, whatever their texts and lists, as long as their numbers fit
into the bits that they are read with and their points in time are read from their form. -/
theorem roundTrips_documents :
    FunctionDecl.codec.RoundTrips FunctionDecl.shape FunctionDecl.InRange ∧
    ClassDecl.codec.RoundTrips ClassDecl.shape ClassDecl.InRange ∧
    SourceFile.codec.RoundTrips SourceFile.shape SourceFile.InRange ∧
    Repository.codec.RoundTrips Repository.shape Repository.InRange ∧
    Edge.codec.RoundTrips Edge.shape (fun _ => True) ∧
    Graph.codec.RoundTrips Graph.shape (fun _ => True) ∧
    Statistics.codec.RoundTrips Statistics.shape Statistics.InRange ∧
    Impact.codec.RoundTrips Impact.shape Impact.InRange ∧
    BlastRadius.codec.RoundTrips BlastRadius.shape BlastRadius.InRange ∧
    ImportRules.codec.RoundTrips ImportRules.shape (fun _ => True) ∧
    Settings.codec.RoundTrips Settings.shape Settings.InRange ∧
    Layer.codec.RoundTrips Layer.shape Layer.InRange ∧
    Report.codec.RoundTrips Report.shape Report.InRange :=
  ⟨roundTrips_of (fun _ => FunctionDecl.readsBack) FunctionDecl.tolerates,
    roundTrips_of (fun _ => ClassDecl.readsBack) ClassDecl.tolerates,
    roundTrips_of (fun _ => SourceFile.readsBack) SourceFile.tolerates,
    roundTrips_of (fun _ => Repository.readsBack) Repository.tolerates,
    roundTrips_of (fun e _ => e.readsBack) Edge.tolerates,
    roundTrips_of (fun g _ => g.readsBack) Graph.tolerates,
    roundTrips_of (fun _ => Statistics.readsBack) Statistics.tolerates,
    roundTrips_of (fun _ => Impact.readsBack) Impact.tolerates,
    roundTrips_of (fun _ => BlastRadius.readsBack) BlastRadius.tolerates,
    roundTrips_of (fun rules _ => rules.readsBack) ImportRules.tolerates,
    roundTrips_of (fun _ => Settings.readsBack) Settings.tolerates,
    roundTrips_of (fun _ => Layer.readsBack) Layer.tolerates,
    roundTrips_of (fun _ => Report.readsBack) Report.tolerates⟩

/-- A report at a leap second, and a graph in whose text an edge misses its kind and has one member
more, the members being in another order. -/
theorem roundTrips_documents_changed :
    let report : Report :=
      { repository := "naïve\n\"😀\"", rootPath := "", graph := {}, cycles := [[], ["a"]],
        generatedAt :=
          { date := ⟨2016, 12, 31⟩, minute := 1439, second := 60, nanosecond := 7 },
        statistics :=
          { totalNodes := Text.maxCount, totalEdges := 0, directEdges := 0, dynamicEdges := 0,
            externalEdges := 0, unresolvedEdges := 0, isolatedFiles := 0, maxFanIn := 0,
            maxFanInFile := none, maxFanOut := 0, maxFanOutFile := some "" },
        unresolvedImports := [], externalModules := .ofEntries [("serde", 2)] }
    let graph : Graph := { nodes := ["a\\"], edges := [{ source := "a\\", target := "b" }] }
    let edge : Json := .object
      [("note", .array [.null, .integer (-5)]), ("target", .text "b"), ("source", .text "a\\")]
    let changed : Json := .object [("edges", .array [edge]), ("nodes", .texts ["a\\"])]
    report.InRange ∧ Json.read Report.codec (Report.codec.encode report).pretty = .ok report ∧
      Json.read Graph.codec changed.pretty = .ok graph := by
  intro report graph edge changed
  have hinstant : Instant.read (Instant.format ⟨⟨2016, 12, 31⟩, 1439, 60, 7⟩) =
      .ok ⟨⟨2016, 12, 31⟩, 1439, 60, 7⟩ := by rfl
  have hreport : report.InRange :=
    { generatedAt := hinstant
      statistics := by constructor <;> decide
      externalModules := by decide
      blastRadius := fun _ h => by cases h }
  obtain ⟨-, -, -, -, -, hgraph, -, -, -, -, -, -, hreports⟩ := roundTrips_documents
  refine ⟨hreport, hreports.pretty report hreport, ?_⟩
  refine hgraph.changed graph changed.document _ trivial ?_ (Json.holds_pretty changed)
  let source : String × Document := ("source", .ofText "a\\")
  let target : String × Document := ("target", .ofText "b")
  let note : String × Document := ("note", (Json.array [.null, .integer (-5)]).document)
  let around (d : Document) : Document :=
    .ofMembers [("nodes", .ofItems [.ofText "a\\"]), ("edges", .ofItems [d])]
  let kind : MemberShape Shape := ⟨"type", .leaf, some (.text "direct")⟩
  have hkind : kind ∈ ([⟨"source", .leaf, none⟩, ⟨"target", .leaf, none⟩, kind] : List _) := by
    simp
  have hdefault : kind.default = some (.text "direct") := rfl
  have hmissing : Change Edge.shape (.ofMembers [source, target, (kind.name, .ofText "direct")])
      (.ofMembers [source, target]) := .missing [source, target] [] hkind hdefault
  have hunknown : Change Edge.shape (.ofMembers [source, target])
      (.ofMembers [note, source, target]) :=
    .unknown [] [source, target] (by simp) (Json.spells_write .compact 0 _).skip_eq_none
  have hmembers : Change Edge.shape (.ofMembers [note, source, target])
      (.ofMembers [note, target, source]) := .members (.cons _ (.swap _ _ _))
  have hedge : ReflTransGen (Change Edge.shape) _ edge.document :=
    .tail (.tail (.single hmissing) hunknown) hmembers
  have haround : ∀ d d', Change Edge.shape d d' → Change Graph.shape (around d) (around d') :=
    fun d d' h => .member [_] [] (.tail _ (.head _)) (.item [] [] h)
  exact .tail (ReflTransGen.lift around haround _ _ hedge) (.members (.swap _ _ _))

end Codec

end ImportAtlas
