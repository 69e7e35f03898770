/-
What a schema dump tells of databases: their tables with fields, indexes and
triggers, and the sequences. Names are looked up whatever their case.
-/
import AblOutline.Keyword.Primitive
import AblOutline.Text.Split
namespace AblOutline

namespace Schema

/-- What sort of table it is. -/
inductive TableKind where
  | table
  | system
  | view
deriving DecidableEq, Repr, Inhabited

/-- The name of the kind in records. -/
def TableKind.name : TableKind → String
  | .table => "Table"
  | .system => "System"
  | .view => "View"

/-- A field of a table. -/
structure Field where
  name : String
  /-- The type as the dump writes it. -/
  dataType : String
  primitive : Option Primitive
  format : String
  order : Int
  mandatory : Bool
  extent : Nat
  inIndex : Bool
  primaryKey : Bool
  initial : String
  description : String
deriving DecidableEq, Repr, Inhabited

/-- An index of a table. -/
structure Index where
  name : String
  primary : Bool
  unique : Bool
  fields : List String
deriving DecidableEq, Repr, Inhabited

/-- A procedure that runs on an event of a table. -/
structure Trigger where
  event : String
  procedure : String
deriving DecidableEq, Repr, Inhabited

/-- A table. -/
structure Table where
  name : String
  id : String
  crc : String
  dumpName : String
  description : String
  hidden : Bool
  frozen : Bool
  kind : TableKind
  fields : List Field := []
  indexes : List Index := []
  triggers : List Trigger := []
deriving DecidableEq, Repr, Inhabited

/-- A database, under its logical name or an alias. -/
structure Database where
  name : String
  physicalName : String
  version : String
  dumpDate : String
  dumpTime : String
  tables : List Table := []
  /-- The name of the database that an alias stands for. -/
  aliasOf : Option String := none
deriving DecidableEq, Repr, Inhabited

/-- A sequence and the database it belongs to. -/
structure Sequence where
  name : String
  database : String
deriving DecidableEq, Repr, Inhabited

end Schema

/-- The databases and sequences of one dump, in its order. -/
structure Schema where
  databases : List Schema.Database := []
  sequences : List Schema.Sequence := []
deriving DecidableEq, Repr, Inhabited

namespace Schema

/-- The field of that name. -/
def Table.field? (t : Table) (name : String) : Option Field :=
  t.fields.find? (Text.same ·.name name)

/-- The table of that name. -/
def Database.table? (d : Database) (name : String) : Option Table :=
  d.tables.find? (Text.same ·.name name)

/-- The database of that name. -/
def database? (s : Schema) (name : String) : Option Database :=
  s.databases.find? (Text.same ·.name name)

/-- The table that `name` or `database.name` names. -/
def table? (s : Schema) (name : String) : Option Table :=
  match Text.splitFirst? '.' name with
  | some (database, table) => (s.database? database).bind (·.table? table)
  | none => s.databases.findSome? (·.table? name)

/-- The field that `table.field` or `database.table.field` names. -/
def field? (s : Schema) (name : String) : Option Field :=
  match Text.pieces '.' name with
  | [table, field] => (s.table? table).bind (·.field? field)
  | [database, table, field] =>
    ((s.database? database).bind (·.table? table)).bind (·.field? field)
  | _ => none

/-- The fields of a table, those of the primary key first. -/
def fieldsOf? (s : Schema) (table : String) : Option (List Field) :=
  (s.table? table).map (·.fields)

end Schema

end AblOutline
