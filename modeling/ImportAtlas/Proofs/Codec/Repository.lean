import ImportAtlas.Repository.Reading
import ImportAtlas.Proofs.Codec.Record

/-!
# Documents of repository descriptions, read back

## Main definitions

* `FunctionDecl.shape`, `ClassDecl.shape`, `SourceFile.shape`, `Repository.shape`: the members of the
  documents, and for which values they may be missing
* `Repository.InRange` and those of its parts: the numbers fit into the bits that they are read with

## Main results

* `Repository.readsBack`, `Repository.tolerates` and those of its parts
-/

namespace ImportAtlas

open Codec

namespace FunctionDecl

/-- The document of a function. -/
def shape : Shape :=
  .record [
    ⟨"name", .leaf, none⟩,
    ⟨"start_line", .leaf, none⟩,
    ⟨"end_line", .leaf, none⟩,
    ⟨"docstring", .leaf, some .null⟩,
    ⟨"args", .list .leaf, some (.array [])⟩,
    ⟨"complexity", .leaf, some (.natural 1)⟩]

theorem tolerates : codec.Tolerates shape :=
  tolerates_record
    ⟨follows_field "name" (tolerates_leaf _), follows_field "start_line" (tolerates_leaf _),
      follows_field "end_line" (tolerates_leaf _),
      follows_defaulted "docstring" (tolerates_leaf _) rfl,
      follows_defaulted "args" (tolerates_list (tolerates_leaf _)) rfl,
      follows_defaulted "complexity" (tolerates_leaf _) (readsBack_line (by decide)), trivial⟩
    (by decide)

/-- The numbers fit into 32 bits. -/
structure InRange (f : FunctionDecl) : Prop where
  startLine : f.startLine ≤ Text.maxLine
  endLine : f.endLine ≤ Text.maxLine
  complexity : f.complexity ≤ Text.maxLine

instance (f : FunctionDecl) : Decidable f.InRange :=
  decidable_of_iff
    (f.startLine ≤ Text.maxLine ∧ f.endLine ≤ Text.maxLine ∧ f.complexity ≤ Text.maxLine)
    ⟨fun ⟨hstart, hend, hcomplexity⟩ => ⟨hstart, hend, hcomplexity⟩,
      fun ⟨hstart, hend, hcomplexity⟩ => ⟨hstart, hend, hcomplexity⟩⟩

theorem readsBack {f : FunctionDecl} (h : f.InRange) : codec.ReadsBack f :=
  readsBack_record (by decide) rfl
    ⟨readsBack_text _, readsBack_line h.startLine, readsBack_line h.endLine,
      readsBack_optional_text _,
      readsBack_texts _, readsBack_line h.complexity, trivial⟩

end FunctionDecl

namespace ClassDecl

/-- The document of a class. -/
def shape : Shape :=
  .record [
    ⟨"name", .leaf, none⟩,
    ⟨"start_line", .leaf, none⟩,
    ⟨"end_line", .leaf, none⟩,
    ⟨"docstring", .leaf, some .null⟩,
    ⟨"methods", .list FunctionDecl.shape, some (.array [])⟩,
    ⟨"bases", .list .leaf, some (.array [])⟩]

theorem tolerates : codec.Tolerates shape :=
  tolerates_record
    ⟨follows_field "name" (tolerates_leaf _), follows_field "start_line" (tolerates_leaf _),
      follows_field "end_line" (tolerates_leaf _),
      follows_defaulted "docstring" (tolerates_leaf _) rfl,
      follows_defaulted "methods" (tolerates_list FunctionDecl.tolerates) rfl,
      follows_defaulted "bases" (tolerates_list (tolerates_leaf _)) rfl, trivial⟩
    (by decide)

/-- The lines fit into 32 bits, and so do the numbers of the methods. -/
structure InRange (c : ClassDecl) : Prop where
  startLine : c.startLine ≤ Text.maxLine
  endLine : c.endLine ≤ Text.maxLine
  methods : ∀ f ∈ c.methods, f.InRange

instance (c : ClassDecl) : Decidable c.InRange :=
  decidable_of_iff
    (c.startLine ≤ Text.maxLine ∧ c.endLine ≤ Text.maxLine ∧ ∀ f ∈ c.methods, f.InRange)
    ⟨fun ⟨hstart, hend, hmethods⟩ => ⟨hstart, hend, hmethods⟩,
      fun ⟨hstart, hend, hmethods⟩ => ⟨hstart, hend, hmethods⟩⟩

theorem readsBack {c : ClassDecl} (h : c.InRange) : codec.ReadsBack c :=
  readsBack_record (by decide) rfl
    ⟨readsBack_text _, readsBack_line h.startLine, readsBack_line h.endLine,
      readsBack_optional_text _,
      readsBack_list fun f hf => FunctionDecl.readsBack (h.methods f hf),
      readsBack_texts _, trivial⟩

end ClassDecl

namespace SourceFile

/-- The document of a file. -/
def shape : Shape :=
  .record [
    ⟨"path", .leaf, none⟩,
    ⟨"content", .leaf, none⟩,
    ⟨"classes", .list ClassDecl.shape, some (.array [])⟩,
    ⟨"functions", .list FunctionDecl.shape, some (.array [])⟩,
    ⟨"imports", .list .leaf, some (.array [])⟩,
    ⟨"summary", .leaf, some .null⟩,
    ⟨"loc", .leaf, some (.natural 0)⟩]

theorem tolerates : codec.Tolerates shape :=
  tolerates_record
    ⟨follows_field "path" (tolerates_leaf _), follows_field "content" (tolerates_leaf _),
      follows_defaulted "classes" (tolerates_list ClassDecl.tolerates) rfl,
      follows_defaulted "functions" (tolerates_list FunctionDecl.tolerates) rfl,
      follows_defaulted "imports" (tolerates_list (tolerates_leaf _)) rfl,
      follows_defaulted "summary" (tolerates_leaf _) rfl,
      follows_defaulted "loc" (tolerates_leaf _) (readsBack_count (by decide)), trivial⟩
    (by decide)

/-- The number of lines fits into 64 bits, and so do the numbers of the classes and functions. -/
structure InRange (file : SourceFile) : Prop where
  classes : ∀ c ∈ file.classes, c.InRange
  functions : ∀ f ∈ file.functions, f.InRange
  loc : file.loc ≤ Text.maxCount

instance (file : SourceFile) : Decidable file.InRange :=
  decidable_of_iff
    ((∀ c ∈ file.classes, c.InRange) ∧ (∀ f ∈ file.functions, f.InRange) ∧
      file.loc ≤ Text.maxCount)
    ⟨fun ⟨hclasses, hfunctions, hloc⟩ => ⟨hclasses, hfunctions, hloc⟩,
      fun ⟨hclasses, hfunctions, hloc⟩ => ⟨hclasses, hfunctions, hloc⟩⟩

theorem readsBack {file : SourceFile} (h : file.InRange) : codec.ReadsBack file :=
  readsBack_record (by decide) rfl
    ⟨readsBack_text _, readsBack_text _,
      readsBack_list fun c hc => ClassDecl.readsBack (h.classes c hc),
      readsBack_list fun f hf => FunctionDecl.readsBack (h.functions f hf),
      readsBack_texts _,
      readsBack_optional_text _,
      readsBack_count h.loc, trivial⟩

end SourceFile

namespace Repository

/-- The document of a repository. -/
def shape : Shape :=
  .record [
    ⟨"root_path", .leaf, none⟩,
    ⟨"files", .list SourceFile.shape, some (.array [])⟩,
    ⟨"name", .leaf, some (.text "Unknown Repo")⟩]

theorem tolerates : codec.Tolerates shape :=
  tolerates_record
    ⟨follows_field "root_path" (tolerates_leaf _),
      follows_defaulted "files" (tolerates_list SourceFile.tolerates) rfl,
      follows_defaulted "name" (tolerates_leaf _) rfl, trivial⟩
    (by decide)

/-- The numbers of all files fit into the bits that they are read with. -/
def InRange (r : Repository) : Prop := ∀ file ∈ r.files, file.InRange

instance (r : Repository) : Decidable r.InRange :=
  inferInstanceAs (Decidable (∀ file ∈ r.files, file.InRange))

theorem readsBack {r : Repository} (h : r.InRange) : codec.ReadsBack r :=
  readsBack_record (by decide) rfl
    ⟨readsBack_text _, readsBack_list fun file hf => SourceFile.readsBack (h file hf),
      readsBack_text _, trivial⟩

end Repository

end ImportAtlas
