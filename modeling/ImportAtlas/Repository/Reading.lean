import ImportAtlas.Codec.Record
import ImportAtlas.Json.Reading
import ImportAtlas.Repository.Check

/-!
# Reading repository descriptions

A description is read from a document, where most members have defaults, and is then checked.

## Main definitions

* `FunctionDecl.codec`, `ClassDecl.codec`, `SourceFile.codec`, `Repository.codec`: the documents
* `Repository.read`: the description that a text holds, checked
-/

namespace ImportAtlas

open Codec

/-- The documents of functions. -/
def FunctionDecl.codec : Codec FunctionDecl :=
  record "FunctionNode"
    (.cons (field "name" text) <|
      .cons (field "start_line" line) <|
      .cons (field "end_line" line) <|
      .cons (defaulted "docstring" text.optional none) <|
      .cons (defaulted "args" text.list []) <|
      .cons (defaulted "complexity" line 1) .nil)
    (fun (name, startLine, endLine, docstring, args, complexity, _) =>
      { name, startLine, endLine, docstring, args, complexity })
    (fun f => (f.name, f.startLine, f.endLine, f.docstring, f.args, f.complexity, ()))

/-- The documents of classes. -/
def ClassDecl.codec : Codec ClassDecl :=
  record "ClassNode"
    (.cons (field "name" text) <|
      .cons (field "start_line" line) <|
      .cons (field "end_line" line) <|
      .cons (defaulted "docstring" text.optional none) <|
      .cons (defaulted "methods" FunctionDecl.codec.list []) <|
      .cons (defaulted "bases" text.list []) .nil)
    (fun (name, startLine, endLine, docstring, methods, bases, _) =>
      { name, startLine, endLine, docstring, methods, bases })
    (fun c => (c.name, c.startLine, c.endLine, c.docstring, c.methods, c.bases, ()))

/-- The documents of files. -/
def SourceFile.codec : Codec SourceFile :=
  record "FileNode"
    (.cons (field "path" text) <|
      .cons (field "content" text) <|
      .cons (defaulted "classes" ClassDecl.codec.list []) <|
      .cons (defaulted "functions" FunctionDecl.codec.list []) <|
      .cons (defaulted "imports" text.list []) <|
      .cons (defaulted "summary" text.optional none) <|
      .cons (defaulted "loc" count 0) .nil)
    (fun (path, content, classes, functions, imports, summary, loc, _) =>
      { path, content, classes, functions, imports, summary, loc })
    (fun f => (f.path, f.content, f.classes, f.functions, f.imports, f.summary, f.loc, ()))

/-- The documents of repositories. -/
def Repository.codec : Codec Repository :=
  record "Repository"
    (.cons (field "root_path" text) <|
      .cons (defaulted "files" SourceFile.codec.list []) <|
      .cons (defaulted "name" text "Unknown Repo") .nil)
    (fun (rootPath, files, name, _) => { rootPath, files, name })
    (fun r => (r.rootPath, r.files, r.name, ()))

/-- The description that a text from the given place holds, checked. -/
def Repository.read (origin text : String) : Except Error Repository := do
  let repository ← (Json.read Repository.codec text).mapError (Error.document origin)
  repository.check.mapError Violation.toError
  return repository

end ImportAtlas
