/-
What a name is: a table, a field, a keyword. A directory is made from a schema
and a list of keywords; where a name has several meanings, tables win over
fields, fields over databases, these over sequences and all over keywords.
Case does not matter.
-/
import AblOutline.Schema.Basic
import AblOutline.Keyword.Builtin
namespace AblOutline

/-- What a name stands for. -/
inductive SymbolKind where
  | keyword
  | table
  | field
  | keyField
  | database
  | sequence
  | unknown
deriving DecidableEq, Repr, Inhabited

namespace SymbolKind

/-- A table. -/
def isTable (kind : SymbolKind) : Bool := kind == .table

/-- A field, of the primary key or not. -/
def isField (kind : SymbolKind) : Bool := kind == .field || kind == .keyField

/-- The name of the kind in records. -/
def name : SymbolKind → String
  | .keyword => "Keyword"
  | .table => "Table"
  | .field => "TableField"
  | .keyField => "PrimaryKeyField"
  | .database => "Database"
  | .sequence => "Sequence"
  | .unknown => "Unknown"

end SymbolKind

/-- Names and what they stand for. -/
structure Directory where
  schema : Schema
  /-- Names in small letters; of two entries of one name the first counts. -/
  entries : List (String × SymbolKind)
deriving Repr, Inhabited

namespace Directory

/-- What a field is to its table. -/
def fieldKind (f : Schema.Field) : SymbolKind := if f.primaryKey then .keyField else .field

/-- The names of a table, plain and with its database. -/
def tableNames (d : Schema.Database) (t : Schema.Table) : List (String × SymbolKind) :=
  [(t.name, .table), (d.name ++ "." ++ t.name, .table)]

/-- The names of a field, with its table and with its database too. -/
def fieldNames (d : Schema.Database) (t : Schema.Table) (f : Schema.Field) :
    List (String × SymbolKind) :=
  [(t.name ++ "." ++ f.name, fieldKind f), (d.name ++ "." ++ t.name ++ "." ++ f.name, fieldKind f)]

/-- All names of a schema and of a list of keywords, those that win first. -/
def names (schema : Schema) (keywords : List String) : List (String × SymbolKind) :=
  (schema.databases.flatMap fun d => d.tables.flatMap (tableNames d))
    ++ (schema.databases.flatMap fun d => d.tables.flatMap fun t => t.fields.flatMap (fieldNames d t))
    ++ (schema.databases.map fun d => (d.name, .database))
    ++ (schema.sequences.map fun s => (s.name, .sequence))
    ++ (keywords.map fun k => (k, .keyword))

/-- The directory of a schema and a list of keywords. -/
def build (schema : Schema) (keywords : List String) : Directory :=
  { schema, entries := (names schema keywords).map fun (name, kind) => (Text.lower name, kind) }

/-- The directory that knows the keywords of the language only. -/
def standard : Directory := build {} Keyword.builtin

/-- What the name stands for, if it is known. -/
def classify (d : Directory) (name : String) : Option SymbolKind :=
  d.entries.lookup (Text.lower name)

/-- What the name stands for. -/
def kindOf (d : Directory) (name : String) : SymbolKind := (d.classify name).getD .unknown

/-- The name is a keyword and nothing else. -/
def isKeyword (d : Directory) (name : String) : Bool := d.classify name == some .keyword

/-- The names that have an entry, each once. -/
def known (d : Directory) : List String := (d.entries.map (·.1)).eraseDups

/-- The number of names that have an entry. -/
def size (d : Directory) : Nat := d.known.length

/-- The keywords that mean nothing else, in small letters and sorted. -/
def keywords (d : Directory) : List String :=
  (d.known.filter d.isKeyword).mergeSort fun a b => decide (a ≤ b)

end Directory

end AblOutline
