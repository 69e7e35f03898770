/-
Reading a schema dump. A dump has one record on each line, in columns between
tabs; the first character tells its sort, and each sort has a fixed number of
columns:

  H  dump date, dump time, logical name, physical name, version          6
  S  sequence name                                                       3
  T  name, id, crc, dump name, description, hidden, frozen, kind         9
  X  table, event, procedure, crc                                        5
  I  table, name, primary, unique, crc, fields joined by %               7
  F  table, name, type, format, order, mandatory, extent, in index,
     in primary key, initial value, description                         12

Sequences and tables belong to the last database read, the rest to the last
table of that database. A line that is no record, and a record with nothing
to belong to, is passed over.
-/
import AblOutline.Schema.Basic
import AblOutline.Text.Blank
import AblOutline.Text.Integer
namespace AblOutline.Schema

-- ============================================================== records

/-- One record of a dump. -/
inductive Record where
  | database (database : Database)
  | sequence (name : String)
  | table (table : Table)
  | trigger (trigger : Trigger)
  | index (index : Index)
  | field (field : Field)
deriving DecidableEq, Repr

/-- A column that says yes. -/
def isSet (column : String) : Bool := column == "1"

/-- The kind of table that a column names. -/
def TableKind.ofColumn (column : String) : TableKind :=
  match Text.upper (Text.trim column) with
  | "S" => .system
  | "V" => .view
  | _ => .table

/-- The field that the columns of its record tell of; nothing when the order
or the extent is no number. -/
def fieldOf? (name dataType format order mandatory extent inIndex primaryKey initial
    description : String) : Option Field := do
  let order ← Text.signed32? (Text.trimChars order.toList)
  let extent ← Text.unsigned32? (Text.trimChars extent.toList)
  some {
    name, dataType, primitive := Primitive.ofWord? dataType, format, order
    mandatory := isSet mandatory
    extent
    inIndex := isSet inIndex
    primaryKey := isSet primaryKey
    initial, description }

/-- The record whose sort and columns are given. -/
def Record.ofColumns? (sort : Char) (columns : List String) : Option Record :=
  match sort, columns with
  | 'H', [_, dumpDate, dumpTime, name, physicalName, version] =>
    some (.database { name, physicalName, version, dumpDate, dumpTime })
  | 'S', [_, name, _] => some (.sequence name)
  | 'T', [_, name, id, crc, dumpName, description, hidden, frozen, kind] =>
    some (.table {
      name, id, crc, dumpName, description
      hidden := isSet hidden
      frozen := isSet frozen
      kind := TableKind.ofColumn kind })
  | 'X', [_, _, event, procedure, _] => some (.trigger { event, procedure })
  | 'I', [_, _, name, primary, unique, _, fields] =>
    some (.index {
      name
      primary := isSet primary
      unique := isSet unique
      fields := (Text.pieces '%' fields).filter (· != "") })
  | 'F', [_, _, name, dataType, format, order, mandatory, extent, inIndex, primaryKey, initial,
      description] =>
    (fieldOf? name dataType format order mandatory extent inIndex primaryKey initial
      description).map .field
  | _, _ => none

/-- The record that a line holds. -/
def Record.ofLine? (line : String) : Option Record :=
  match line.toList with
  | [] => none
  | sort :: _ => Record.ofColumns? sort (Text.pieces '\t' line)

-- ============================================================== reading

/-- The list with its last member changed. -/
def changeLast {α : Type} (f : α → α) (xs : List α) : List α := xs.modify (xs.length - 1) f

/-- The schema with the last table of its last database changed. -/
def changeTable (s : Schema) (f : Table → Table) : Schema :=
  { s with databases := changeLast (fun d => { d with tables := changeLast f d.tables }) s.databases }

/-- The schema with one more record read. -/
def add (s : Schema) : Record → Schema
  | .database d => { s with databases := s.databases ++ [d] }
  | .sequence name =>
    match s.databases.getLast? with
    | some d => { s with sequences := s.sequences ++ [⟨name, d.name⟩] }
    | none => s
  | .table t =>
    { s with databases := changeLast (fun d => { d with tables := d.tables ++ [t] }) s.databases }
  | .trigger x => s.changeTable fun t => { t with triggers := t.triggers ++ [x] }
  | .index i => s.changeTable fun t => { t with indexes := t.indexes ++ [i] }
  | .field f => s.changeTable fun t => { t with fields := t.fields ++ [f] }

/-- The schema of the records that the lines hold. -/
def ofLines (lines : List String) : Schema :=
  (lines.filterMap Record.ofLine?).foldl add {}

-- ============================================================== aliases

/-- Alias and logical name of one definition, `alias,logical`. -/
def aliasOf? (definition : String) : Option (String × String) := do
  let (name, logical) ← Text.splitFirst? ',' definition
  let name := Text.trim name
  let logical := Text.trim logical
  if name = "" ∨ logical = "" ∨ logical.toList.contains ',' then none else some (name, logical)

/-- The schema with one more database: a copy of `logical` named `name`, if
there is such a database. -/
def addAlias (s : Schema) (name logical : String) : Schema :=
  match s.database? logical with
  | some d => { s with databases := s.databases ++ [{ d with name, aliasOf := some d.name }] }
  | none => s

/-- The schema with a copy of a database for each definition of the list,
`alias,logical;alias,logical`. A definition may name an alias made before. -/
def addAliases (s : Schema) (aliases : String) : Schema :=
  ((Text.pieces ';' aliases).filterMap aliasOf?).foldl (fun s (name, logical) => s.addAlias name logical) s

-- ================================================================ order

/-- A field that may stand before another: fields of the primary key come
first, then names count, whatever their case. -/
def Field.precedes (a b : Field) : Bool :=
  if a.primaryKey = b.primaryKey then decide (Text.lower a.name ≤ Text.lower b.name)
  else a.primaryKey

/-- The table with its fields in order. -/
def Table.sorted (t : Table) : Table := { t with fields := t.fields.mergeSort Field.precedes }

/-- The schema with the fields of every table in order. -/
def sorted (s : Schema) : Schema :=
  { s with databases := s.databases.map fun d => { d with tables := d.tables.map (·.sorted) } }

/-- The schema that a dump and a list of aliases tell of. -/
def parse (dump aliases : String) : Schema :=
  ((ofLines (Text.lines dump)).addAliases aliases).sorted

end AblOutline.Schema
