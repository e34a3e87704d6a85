/-!
# Repository descriptions

A repository description lists the files of a repository in order, with what was extracted from
each: its classes and functions, and the texts of its imports. Only paths and imports enter the
dependency graph; the rest is carried along and checked.

## Main definitions

* `FunctionDecl`, `ClassDecl`: what a file declares
* `SourceFile`: a file
* `Repository`: a repository
-/

namespace ImportAtlas

/-- A function or method. -/
structure FunctionDecl where
  name : String
  /-- The first line, counted from one. -/
  startLine : Nat
  /-- The last line. -/
  endLine : Nat
  docstring : Option String := none
  args : List String := []
  /-- The cyclomatic complexity, at least one. -/
  complexity : Nat := 1
  deriving DecidableEq, Repr

/-- A class with its methods. -/
structure ClassDecl where
  name : String
  startLine : Nat
  endLine : Nat
  docstring : Option String := none
  methods : List FunctionDecl := []
  bases : List String := []
  deriving DecidableEq, Repr

/-- A source file and what was extracted from it. -/
structure SourceFile where
  path : String
  content : String
  classes : List ClassDecl := []
  functions : List FunctionDecl := []
  /-- The texts of the imports, in source order. -/
  imports : List String := []
  summary : Option String := none
  /-- The number of lines. -/
  loc : Nat := 0
  deriving DecidableEq, Repr

/-- The files of a repository, in order. -/
structure Repository where
  rootPath : String
  files : List SourceFile := []
  name : String := "Unknown Repo"
  deriving DecidableEq, Repr

namespace Repository

/-- The paths of the files, in order. -/
def paths (repository : Repository) : List String :=
  repository.files.map (·.path)

/-- The first file of a path. -/
def file? (repository : Repository) (path : String) : Option SourceFile :=
  repository.files.find? (·.path == path)

end Repository

end ImportAtlas
