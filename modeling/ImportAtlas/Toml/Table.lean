import ImportAtlas.Codec.Document
import ImportAtlas.Dictionary

/-!
# Tables in TOML

A table grows while a text is read: by entries below its header, by dotted keys and by the headers
of tables inside it. What has been written as a whole is closed, and no table is defined twice. A
table that exists only because a header goes through it may be defined later; one that dotted keys
made grows by dotted keys of the same section only.

## Main definitions

* `Toml.Table`, `Toml.Item`: growing tables
* `Toml.Table.alter?`: a change at the end of a path
* `Toml.Table.addEntry?`, `Toml.Table.addSection?`: one more entry, one more section
* `Toml.Table.toDocument`: the document of a table
-/

namespace ImportAtlas.Toml

open Codec (Document)

/-- How a table came to be. -/
inductive Origin where
  /-- By its own header, or as the table of the whole text. -/
  | header
  /-- By the header of a table inside it. -/
  | passage
  /-- By dotted keys. -/
  | dots
  deriving DecidableEq, Repr

mutual

/-- What a key of a growing table stands for. -/
inductive Item where
  /-- A value written as a whole. -/
  | closed (value : Document)
  | table (table : Table)
  /-- Tables of one name, the latest first. -/
  | series (latest : Table) (earlier : List Table)

/-- A growing table with its entries in the order of their writing, the latest first. -/
inductive Table where
  | mk (origin : Origin) (entries : List (String × Item))

end

namespace Table

/-- How a table came to be. -/
def origin : Table → Origin
  | mk origin _ => origin

/-- The entries of a table. -/
def entries : Table → List (String × Item)
  | mk _ entries => entries

/-- A table without entries. -/
def fresh (origin : Origin) : Table := mk origin []

/-- What a key stands for. -/
def get? (table : Table) (key : String) : Option Item :=
  table.entries.lookup key

/-- The table in which a key stands for something else. -/
def set (table : Table) (key : String) (item : Item) : Table :=
  mk table.origin ((key, item) :: table.entries.filter (·.1 != key))

/-- The table with a change at the end of a path, where missing tables are made. A path of dotted
keys does not lead into tables that have headers, and no path leads into closed values. -/
def alter? (through : Origin) (change : Table → Option Table) (table : Table) :
    List String → Option Table
  | [] => change table
  | key :: path =>
    match table.get? key with
    | none =>
      (alter? through change (fresh through) path).map fun inner => table.set key (.table inner)
    | some (.closed _) => none
    | some (.table inner) =>
      if through = .dots ∧ inner.origin = .header then none
      else (alter? through change inner path).map fun inner => table.set key (.table inner)
    | some (.series latest earlier) =>
      (alter? through change latest path).map fun latest =>
        table.set key (.series latest earlier)

/-- The table with one more entry, under a key or under dotted keys. A table that dotted keys made
takes entries by dotted keys only, and no other table does after the first key. -/
def addEntry? (table : Table) (path : List String) (key : String) (value : Document) :
    Option Table :=
  let change (inner : Table) : Option Table :=
    if (inner.origin == .dots) == path.isEmpty then none
    else
      match inner.get? key with
      | some _ => none
      | none => some (inner.set key (.closed value))
  alter? .dots change table path

/-- A key with the tables before it, and its value. -/
structure Entry where
  path : List String
  key : String
  value : Document

/-- The table with more entries. -/
def addEntries? (table : Table) (entries : List Entry) : Option Table :=
  entries.foldlM (fun table entry => table.addEntry? entry.path entry.key entry.value) table

/-- A header with the entries below it. -/
structure Section where
  /-- Whether the header starts one more table of a series. -/
  inSeries : Bool
  path : List String
  key : String
  entries : List Entry

/-- The table with one more section. -/
def addSection? (table : Table) (part : Section) : Option Table :=
  let change (parent : Table) : Option Table :=
    if part.inSeries then do
      let inner ← (fresh .header).addEntries? part.entries
      match parent.get? part.key with
      | none => return parent.set part.key (.series inner [])
      | some (.series latest earlier) =>
        return parent.set part.key (.series inner (latest :: earlier))
      | some _ => failure
    else do
      -- A table that only headers inside it have made so far may still get its own header.
      let start ← match parent.get? part.key with
        | none => some []
        | some (.table (mk .passage entries)) => some entries
        | some _ => none
      let inner ← (mk .header start).addEntries? part.entries
      return parent.set part.key (.table inner)
  alter? .passage change table part.path

/-- The document of a map of documents, its keys in order. -/
def mapDocument (entries : List (String × Document)) : Document :=
  .map ((Dictionary.ofEntries entries).entries.map fun entry => (.ofText entry.1, entry.2)) none

mutual

/-- The document of what a key stands for. -/
def itemDocument : Item → Document
  | .closed value => value
  | .table table => toDocument table
  | .series latest earlier =>
    .sequence ((toDocument latest :: tableDocuments earlier).reverse) none

/-- The documents of tables. -/
def tableDocuments : List Table → List Document
  | [] => []
  | table :: tables => toDocument table :: tableDocuments tables

/-- The document of a table. -/
def toDocument : Table → Document
  | mk _ entries => mapDocument (entryDocuments entries)

/-- The documents of entries. -/
def entryDocuments : List (String × Item) → List (String × Document)
  | [] => []
  | (key, item) :: entries => (key, itemDocument item) :: entryDocuments entries

end

end Table

end ImportAtlas.Toml
