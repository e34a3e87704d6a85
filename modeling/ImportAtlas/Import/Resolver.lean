import ImportAtlas.Import.Specifier
import ImportAtlas.Settings.Basic
import Std.Data.HashMap

/-!
# Resolving imports to files

An import is resolved by a search: it stands for some base paths, tried in turn, and each base
path stands for the file of that name, the file with one of the extensions added, or the index
file of the directory of that name. The first file found counts, and it is answered as the
repository writes it.

## Main definitions

* `Resolver`: anything that maps an import text and the importing file to a path
* `FileIndex`: the files of a repository by the normal form of their paths
* `FileIndex.lookup?`: the file that a base path stands for
* `FileIndex.resolve?`: the file that an import stands for
-/

namespace ImportAtlas

open Text

/-- What maps imports to paths. -/
structure Resolver where
  /-- The path for an import text and the importing file, if there is one. -/
  find? : String → String → Option String

/-- The files of a repository by the normal form of their paths, with the rules for finding
them. -/
structure FileIndex where
  rules : ImportRules
  /-- The path as written of each normal form; the first path of a normal form counts. -/
  byNormalForm : Std.HashMap String String

namespace FileIndex

open Import ImportAtlas.Path

/-- Notes a path under its normal form unless an earlier path has that form. -/
def note (known : Std.HashMap String String) (path : String) : Std.HashMap String String :=
  known.insertIfNew (normalize path) path

/-- The index of a list of paths. -/
def ofPaths (rules : ImportRules) (paths : List String) : FileIndex :=
  ⟨rules, paths.foldl note ∅⟩

variable (index : FileIndex)

/-- The file of a normal form. -/
def find? (normal : String) : Option String :=
  index.byNormalForm[normal]?

/-- The file of a stem with the first extension that gives one. -/
def withExtension? (stem : String) : Option String :=
  index.rules.extensions.findSome? fun ext => index.find? (stem ++ ext)

/-- The index file of a directory. A directory above the start has none. -/
def directoryFile? (dir : String) : Option String :=
  if climbs dir then none
  else index.rules.indexFiles.findSome? fun stem => index.withExtension? (under dir stem)

/-- The file that a base path stands for: the file itself, the file with an extension added, or
the index file of the directory. -/
def lookup? (base : String) : Option String :=
  let base := normalize base
  if base.isEmpty || climbs base then index.directoryFile? base
  else (index.find? base).or ((index.withExtension? base).or (index.directoryFile? base))

/-- The file that a text stands for as a path from the top. -/
def fromTop? (specifier : String) : Option String :=
  (moduleForms specifier).findSome? index.lookup?

/-- The file that a text stands for under the first source root that has one. -/
def fromRoots? (specifier : String) : Option String :=
  index.rules.sourceRoots.findSome? fun root =>
    (moduleForms specifier).findSome? fun form => index.lookup? (under root form)

/-- The directory `n` levels above a directory. -/
def ancestor (dir : String) : Nat → String
  | 0 => dir
  | n + 1 => ancestor (parent dir) n

/-- The file that a text stands for from the directory of the importing file. A text with a slash
is a path from there. Without one, its leading dots count the levels, the first being that
directory itself, and the dots after them separate names. -/
def fromImporter? (specifier importer : String) : Option String :=
  let dir := parent (normalize importer)
  if specifier.toList.contains '/' then index.lookup? (under dir specifier)
  else
    match (specifier.toList.takeWhile (· == '.')).length with
    | 0 => (moduleForms specifier).findSome? fun form => index.lookup? (under dir form)
    | levels + 1 =>
      let body := specifier.toList.dropWhile (· == '.')
      index.lookup? (under (ancestor dir levels) (String.ofList (replaceChar '.' '/' body)))

/-- The search by the relative-path convention. -/
def relative? (specifier importer : String) : Option String :=
  if isRelative specifier then index.fromImporter? specifier importer
  else (index.fromTop? specifier).or (index.fromImporter? specifier importer)

/-- The search by the package-root convention. -/
def package? (specifier importer : String) : Option String :=
  if isRelative specifier then index.fromImporter? specifier importer
  else
    (index.fromTop? specifier).or
      ((index.fromRoots? specifier).or (index.fromImporter? specifier importer))

/-- The longest alias that a text starts with, with its replacement. Lengths are in bytes; of two
aliases of one text, one length means one alias. -/
def longestAlias? (aliases : Dictionary String) (specifier : String) : Option (String × String) :=
  (aliases.entries.filter fun entry => entry.1.toList.isPrefixOf specifier.toList).foldl
    (fun best entry =>
      match best with
      | none => some entry
      | some b => if b.1.utf8ByteSize ≤ entry.1.utf8ByteSize then some entry else some b)
    none

/-- The text with its longest alias replaced, if it starts with one. -/
def expandAlias? (specifier : String) : Option String :=
  (longestAlias? index.rules.aliases specifier).map fun entry =>
    entry.2 ++ String.ofList (specifier.toList.drop entry.1.toList.length)

/-- The search by the custom-resolver convention: the expanded text first, then the text. -/
def custom? (specifier importer : String) : Option String :=
  ((index.expandAlias? specifier).bind fun expanded => index.package? expanded importer).or
    (index.package? specifier importer)

/-- The file that an import stands for, if any; blanks around the text do not count. -/
def resolve? (specifier importer : String) : Option String :=
  let specifier := trim specifier
  if specifier.isEmpty then none
  else match index.rules.convention with
    | .relativePath => index.relative? specifier importer
    | .packageRoot => index.package? specifier importer
    | .customResolver => index.custom? specifier importer

/-- The index as a resolver. -/
def resolver : Resolver := ⟨index.resolve?⟩

end FileIndex

end ImportAtlas
