import ImportAtlas.Import.SymbolTable
import ImportAtlas.Repository.Check

/-!
# Building dependency graphs

A graph is built from a checked repository in three steps: the files that an exclude pattern
describes are left out, the imports of the others are resolved into a symbol table, and the table
is assembled into a graph. Nodes follow the order of the files, edges the order of the files and
their imports; a file's import of itself gives no edge, and equal edges are listed once.

## Main definitions

* `Graph.assemble`: the graph of a repository and a symbol table
* `BuildOptions`: the settings that a graph depends on
* `Graph.build`: the graph of a repository
-/

namespace ImportAtlas

/-- What can be wrong with a symbol table for a repository. -/
inductive AssemblyFault where
  /-- Two files share a path. -/
  | duplicatePath (path : String)
  /-- An import has no entry in the table. -/
  | missingEntry (source rawImport : String)
  deriving DecidableEq, Repr

/-- An assembly fault as an error. -/
def AssemblyFault.toError : AssemblyFault → Error
  | duplicatePath path => .validation ("duplicate file path '" ++ path ++ "'") [path]
  | missingEntry source rawImport =>
    .validation
      ("import '" ++ rawImport ++ "' of '" ++ source ++ "' is missing from the symbol table")
      [source]

/-- The settings that a graph depends on. -/
structure BuildOptions where
  rules : ImportRules := {}
  /-- Globs for the files that are left out. -/
  excludePatterns : List String := []
  /-- The largest number of files, after leaving some out. -/
  maxNodes : Option Nat := none

/-- The build options among the settings. -/
def Settings.buildOptions (settings : Settings) : BuildOptions where
  rules := settings.rules
  excludePatterns := settings.excludePatterns
  maxNodes := settings.maxNodes

namespace Graph

/-- Checks that paths are distinct and none of them has been seen before. -/
def checkDistinct (seen : Std.HashSet String) : List String → Except AssemblyFault Unit
  | [] => .ok ()
  | path :: paths =>
    if seen.contains path then .error (.duplicatePath path)
    else checkDistinct (seen.insert path) paths

/-- The edge of an import, given its resolution; none if a file imports itself. -/
def edgeOf? (source rawImport : String) (resolution : Resolution) : Option Edge :=
  match resolution.path with
  | some path => if path = source then none else some ⟨source, path, resolution.kind⟩
  | none => some ⟨source, Text.trim rawImport, resolution.kind⟩

/-- Collects the edges of imports, those seen before left out. -/
def collectEdges (table : SymbolTable) (seen : Std.HashSet Edge) :
    List (String × String) → Except AssemblyFault (List Edge)
  | [] => .ok []
  | (source, rawImport) :: pairs =>
    match table.get? source rawImport with
    | none => .error (.missingEntry source rawImport)
    | some resolution =>
      match edgeOf? source rawImport resolution with
      | none => collectEdges table seen pairs
      | some edge =>
        if seen.contains edge then collectEdges table seen pairs
        else do
          let edges ← collectEdges table (seen.insert edge) pairs
          return edge :: edges

/-- The graph of a repository and a symbol table for it. -/
def assemble (repository : Repository) (table : SymbolTable) : Except AssemblyFault Graph := do
  checkDistinct ∅ repository.paths
  let edges ← collectEdges table ∅ repository.imports
  return ⟨repository.paths, edges⟩

/-- The repository without the files that an exclude pattern describes. -/
def exclude (patterns : List String) (repository : Repository) :
    Except Glob.Fault Repository := do
  let compiled ← compilePatterns patterns
  return { repository with files := repository.files.filter (!anyAccepts compiled ·.path) }

/-- Checks that there are no more files than a limit allows. -/
def checkLimit (limit : Option Nat) (count : Nat) : Except Error Unit :=
  match limit with
  | some limit => if limit < count then .error (.nodeLimit count limit) else .ok ()
  | none => .ok ()

/-- The graph of a repository, imports being resolved by `custom` if it is given and by the
convention of the rules otherwise. -/
def build (options : BuildOptions) (custom : Option Resolver) (repository : Repository) :
    Except Error Graph := do
  repository.check.mapError Violation.toError
  let kept ← (exclude options.excludePatterns repository).mapError Error.glob
  checkLimit options.maxNodes kept.files.length
  let resolver := custom.getD (kept.resolver options.rules)
  let table ← SymbolTable.build kept options.rules resolver
  (assemble kept table).mapError AssemblyFault.toError

end Graph

end ImportAtlas
