import ImportAtlas.Path.Normal
import ImportAtlas.Text.Blank

/-!
# Import texts

The text of an import is a path (`./lib/helpers`), a dotted module (`app.models.user`), a path of
names (`store::Entry`) or a scoped package (`@scope/core`). This module says what such a
text can mean before any file is looked at.

## Main definitions

* `Import.isRelative`: whether a text is taken from the importing file only
* `Import.moduleForms`: the paths that a text that is not relative may denote
* `Import.topLevelName?`: the package that an import belongs to
-/

namespace ImportAtlas.Import

open Text

/-- Whether an import is written relative to the importing file: it starts with a dot. -/
def isRelative (specifier : String) : Bool :=
  specifier.toList.head? == some '.'

/-- The text with `/` for each pair of colons, from left to right. -/
def slashPairs : List Char → List Char
  | ':' :: ':' :: rest => '/' :: slashPairs rest
  | c :: rest => c :: slashPairs rest
  | [] => []

/-- The path that a dotted module or a path of names denotes. -/
def dottedForm (specifier : String) : String :=
  Path.normalize (String.ofList (replaceChar '.' '/' (slashPairs specifier.toList)))

/-- The paths that a text may denote: its own normal form, and for a text without `/` the path
that it denotes as a dotted module. -/
def moduleForms (specifier : String) : List String :=
  let written := Path.normalize specifier
  if specifier.toList.contains '/' then [written]
  else
    let dotted := dottedForm specifier
    if dotted = written then [written] else [written, dotted]

/-- The text before the second slash, or all of it. -/
def scopedName (specifier : List Char) : List Char :=
  match split (· == '/') specifier with
  | scope :: name :: _ => scope ++ ['/'] ++ name
  | _ => specifier

/-- Whether a character ends the top-level name of an import. -/
def endsTopLevel (c : Char) : Bool := c == '.' || c == '/' || c == ':'

/-- The package that an import belongs to: the text up to its second slash if it starts with `@`,
and up to its first dot, slash or colon otherwise. Relative and blank imports belong to none. -/
def topLevelName? (specifier : String) : Option String :=
  match trimChars specifier.toList with
  | [] => none
  | '.' :: _ => none
  | '@' :: rest => some (String.ofList (scopedName ('@' :: rest)))
  | cs => some (String.ofList (cs.takeWhile (!endsTopLevel ·)))

end ImportAtlas.Import
