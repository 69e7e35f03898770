/-
The built-in data types, which schema fields and `DEFINE ... AS` share. Some
type words may be shortened (`CHAR`, `INT`, `DEC`, `LOG`).
-/
import AblOutline.Text.Case
namespace AblOutline

/-- A data type. -/
inductive Primitive where
  | character
  | longchar
  | integer
  | int64
  | decimal
  | logical
  | date
  | datetime
  | datetimeTz
  | handle
  | comHandle
  | rowid
  | recid
  | raw
  | memptr
  | blob
  | clob
  /-- Any other type name: a class. -/
  | classType
deriving DecidableEq, Repr, Inhabited

namespace Primitive

/-- The built-in type of the given name. -/
def ofWord? (word : String) : Option Primitive :=
  match Text.upper word with
  | "INT64" => some .int64
  | "DATE" => some .date
  | "DATETIME" => some .datetime
  | "DATETIME-TZ" => some .datetimeTz
  | "HANDLE" | "WIDGET-HANDLE" => some .handle
  | "COM-HANDLE" => some .comHandle
  | "ROWID" => some .rowid
  | "RECID" => some .recid
  | "RAW" => some .raw
  | "MEMPTR" => some .memptr
  | "LONGCHAR" => some .longchar
  | "BLOB" => some .blob
  | "CLOB" => some .clob
  | _ =>
    if Text.abbreviates word "CHARACTER" 4 then some .character
    else if Text.abbreviates word "INTEGER" 3 then some .integer
    else if Text.abbreviates word "DECIMAL" 3 then some .decimal
    else if Text.abbreviates word "LOGICAL" 3 then some .logical
    else none

/-- The type of the given name: a class when no built-in type has it. -/
def ofWord (word : String) : Primitive := (ofWord? word).getD .classType

/-- The full type word. -/
def keyword : Primitive → String
  | .character => "CHARACTER"
  | .longchar => "LONGCHAR"
  | .integer => "INTEGER"
  | .int64 => "INT64"
  | .decimal => "DECIMAL"
  | .logical => "LOGICAL"
  | .date => "DATE"
  | .datetime => "DATETIME"
  | .datetimeTz => "DATETIME-TZ"
  | .handle => "HANDLE"
  | .comHandle => "COM-HANDLE"
  | .rowid => "ROWID"
  | .recid => "RECID"
  | .raw => "RAW"
  | .memptr => "MEMPTR"
  | .blob => "BLOB"
  | .clob => "CLOB"
  | .classType => "CLASS"

/-- The name of the type in reports. -/
def name : Primitive → String
  | .character => "Character"
  | .longchar => "Longchar"
  | .integer => "Integer"
  | .int64 => "Int64"
  | .decimal => "Decimal"
  | .logical => "Logical"
  | .date => "Date"
  | .datetime => "Datetime"
  | .datetimeTz => "DatetimeTz"
  | .handle => "Handle"
  | .comHandle => "ComHandle"
  | .rowid => "Rowid"
  | .recid => "Recid"
  | .raw => "Raw"
  | .memptr => "Memptr"
  | .blob => "Blob"
  | .clob => "Clob"
  | .classType => "Class"

end Primitive

end AblOutline
