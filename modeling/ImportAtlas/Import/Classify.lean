import ImportAtlas.Glob.Match
import ImportAtlas.Graph.Basic
import ImportAtlas.Import.Specifier
import ImportAtlas.Settings.Basic

/-!
# Classifying imports

An import that resolves to a file is direct, or dynamic if its text matches one of the dynamic
patterns. Any other import is external if its top-level name is a known module, and unresolved
otherwise.

## Main definitions

* `Resolution`: what became of an import
* `compilePatterns`: a list of globs, compiled
* `Classifier`: the compiled rules
* `Classifier.classify`: the resolution of an import, given the file found for it
-/

namespace ImportAtlas

/-- What became of an import. -/
structure Resolution where
  /-- The file that the import refers to, for the internal kinds. -/
  path : Option String
  kind : EdgeKind
  deriving DecidableEq, Repr

/-- Compiles globs in order, up to the first that is faulty. -/
def compilePatterns : List String → Except Glob.Fault (List Glob.Pattern)
  | [] => .ok []
  | text :: texts => do
    let pattern ← Glob.compile text
    let patterns ← compilePatterns texts
    return pattern :: patterns

/-- Whether one of the patterns describes a text. -/
def anyAccepts (patterns : List Glob.Pattern) (text : String) : Bool :=
  patterns.any (·.accepts text)

/-- The compiled rules for telling imports apart. -/
structure Classifier where
  externalModules : List String
  dynamicPatterns : List Glob.Pattern

namespace Classifier

/-- Compiles the rules, up to the first dynamic pattern that is faulty. -/
def ofRules (rules : ImportRules) : Except Glob.Fault Classifier := do
  let patterns ← compilePatterns rules.dynamicPatterns
  return ⟨rules.externalModules, patterns⟩

variable (classifier : Classifier)

/-- Whether an import happens at run time. -/
def isDynamic (rawImport : String) : Bool :=
  anyAccepts classifier.dynamicPatterns (Text.trim rawImport)

/-- Whether an import belongs to a known third-party module. -/
def isExternal (rawImport : String) : Bool :=
  (Import.topLevelName? rawImport).any classifier.externalModules.contains

/-- The resolution of an import, given the file found for it. -/
def classify (rawImport : String) (found : Option String) : Resolution :=
  match found with
  | some path => ⟨some path, if classifier.isDynamic rawImport then .dynamic else .direct⟩
  | none => ⟨none, if classifier.isExternal rawImport then .external else .unresolved⟩

end Classifier

end ImportAtlas
