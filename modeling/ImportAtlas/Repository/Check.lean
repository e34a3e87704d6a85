import ImportAtlas.Error
import ImportAtlas.Repository.Basic
import ImportAtlas.Text.Blank
import Std.Data.HashSet

/-!
# Checking repository descriptions

A description is valid if its files have distinct paths that are not blank, and every class,
method and function in them has a name and a span of lines that makes sense. Checking reports the
first violation in the order of the description; within a file, a repeated path comes first, then
a blank path, the classes with their methods, and the functions.

## Main definitions

* `Violation`: what can be wrong with a description
* `FunctionDecl.check`, `ClassDecl.check`, `SourceFile.check`, `Repository.check`: the checks
-/

namespace ImportAtlas

/-- The sort of a declaration. -/
inductive DeclSort where
  | function
  | cls
  deriving DecidableEq, Repr

/-- The word for a sort. -/
def DeclSort.word : DeclSort → String
  | .function => "function"
  | .cls => "class"

/-- What can be wrong with a declaration. -/
inductive DeclFault where
  | blankName (sort : DeclSort)
  | zeroLine (sort : DeclSort) (name : String)
  | backwards (sort : DeclSort) (name : String) (startLine endLine : Nat)
  | noComplexity (name : String) (given : Nat)
  deriving DecidableEq, Repr

/-- A fault of a declaration in words. -/
def DeclFault.message : DeclFault → String
  | blankName sort => sort.word ++ " name must not be empty"
  | zeroLine sort name =>
    sort.word ++ " '" ++ name ++ "' has a zero line number; lines start at 1"
  | backwards sort name startLine endLine =>
    sort.word ++ " '" ++ name ++ "' starts at line " ++ toString startLine ++
      " after it ends at line " ++ toString endLine
  | noComplexity name given =>
    "function '" ++ name ++ "' has complexity " ++ toString given ++ ", must be at least 1"

/-- A fault of a declaration that belongs to no file. -/
def DeclFault.toError (fault : DeclFault) : Error :=
  .validation fault.message []

/-- What can be wrong with a repository description. -/
inductive Violation where
  /-- Two files share a path. -/
  | duplicatePath (path : String)
  /-- A file has a blank path. -/
  | blankPath
  /-- A declaration in a file is faulty. -/
  | declaration (path : String) (fault : DeclFault)
  deriving DecidableEq, Repr

/-- A violation as an error, naming the file where there is a name. -/
def Violation.toError : Violation → Error
  | duplicatePath path => .validation ("duplicate file path '" ++ path ++ "'") [path]
  | blankPath => .validation "file path must not be empty" []
  | declaration path fault => .validation (fault.message ++ " (in " ++ path ++ ")") [path]

/-- Checks the name and the lines of a declaration. -/
def checkSpan (sort : DeclSort) (name : String) (startLine endLine : Nat) :
    Except DeclFault Unit :=
  if Text.isBlankText name then .error (.blankName sort)
  else if startLine = 0 ∨ endLine = 0 then .error (.zeroLine sort name)
  else if endLine < startLine then .error (.backwards sort name startLine endLine)
  else .ok ()

/-- Checks the name, the lines and the complexity of a function. -/
def FunctionDecl.check (function : FunctionDecl) : Except DeclFault Unit := do
  checkSpan .function function.name function.startLine function.endLine
  if function.complexity = 0 then
    throw (.noComplexity function.name function.complexity)

/-- Checks the name and the lines of a class, then its methods in order. -/
def ClassDecl.check (cls : ClassDecl) : Except DeclFault Unit := do
  checkSpan .cls cls.name cls.startLine cls.endLine
  cls.methods.forM FunctionDecl.check

/-- Checks the path of a file, then its classes and its functions in order. -/
def SourceFile.check (file : SourceFile) : Except Violation Unit :=
  if Text.isBlankText file.path then .error .blankPath
  else (do
    file.classes.forM ClassDecl.check
    file.functions.forM FunctionDecl.check).mapError (.declaration file.path)

/-- Checks files in order, none of which may have a path seen before. -/
def checkFiles (seen : Std.HashSet String) : List SourceFile → Except Violation Unit
  | [] => .ok ()
  | file :: files =>
    if seen.contains file.path then .error (.duplicatePath file.path)
    else do
      file.check
      checkFiles (seen.insert file.path) files

/-- Checks a repository description. -/
def Repository.check (repository : Repository) : Except Violation Unit :=
  checkFiles ∅ repository.files

/-! ## Building declarations with checks -/

/-- A function of this name and these lines, checked. -/
def FunctionDecl.create (name : String) (startLine endLine : Nat) :
    Except DeclFault FunctionDecl := do
  let function : FunctionDecl := { name, startLine, endLine }
  function.check
  return function

/-- The function with another complexity, checked. -/
def FunctionDecl.withComplexity (function : FunctionDecl) (complexity : Nat) :
    Except DeclFault FunctionDecl := do
  let changed := { function with complexity }
  changed.check
  return changed

/-- A class of this name and these lines, checked. -/
def ClassDecl.create (name : String) (startLine endLine : Nat) : Except DeclFault ClassDecl := do
  let cls : ClassDecl := { name, startLine, endLine }
  cls.check
  return cls

/-- A file of this path and content, checked, with the line count of the content. -/
def SourceFile.create (path content : String) : Except Violation SourceFile := do
  let file : SourceFile := { path, content, loc := Text.lineCount content }
  file.check
  return file

/-- A repository of these files, checked, with the standard name. -/
def Repository.create (rootPath : String) (files : List SourceFile) :
    Except Violation Repository := do
  let repository : Repository := { rootPath, files }
  repository.check
  return repository

end ImportAtlas
