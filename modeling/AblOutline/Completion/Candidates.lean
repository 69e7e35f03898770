/-
What is suggested: what a source declares, and what a directory knows, which is
databases, tables, fields, sequences and keywords.
-/
import AblOutline.Completion.Basic
import AblOutline.ParsedFile
import AblOutline.Directory
namespace AblOutline

-- ============================================================= declared

namespace Completion

/-- A function as shown: its type, and its parameters if it has any. -/
def signature (returnType parameters : String) : String :=
  if parameters = "" then returnType else returnType ++ " (" ++ parameters ++ ")"

/-- What a definition of that type is suggested as. -/
def kindOfType : DefineType → CompletionKind
  | .variable | .property | .stream | .event => .var
  | .parameter => .parameter
  | .buffer => .buffer
  | .tempTable | .workTable => .tempTable
  | _ => .widget

/-- What is shown of a definition: what it is like, else its type, else what
it is. -/
def definitionDetail (d : Item.Definition) : String :=
  match d.like with
  | some like => "LIKE " ++ like
  | none => if d.asType = "" then d.type.keyword else d.asType

/-- The suggestion for content of that name, without its place. A function
with a prototype and a body is suggested for its body. -/
def ofContent? (name : String) : Item.Content → Option Completion
  | .procedure p =>
    some { label := name, kind := .procedure, detail := p.external.map ("EXTERNAL " ++ ·), rank := 30 }
  | .prototype f =>
    if f.implementation.isSome then none
    else
      some { label := name, kind := .function, detail := signature f.returnType f.parameters
             rank := 30 }
  | .implementation f =>
    some { label := name, kind := .function, detail := signature f.returnType f.parameters
           rank := 30 }
  | .method m =>
    some { label := name, kind := .method, detail := signature m.returnType m.parameters, rank := 30 }
  | .label block => some { label := name, kind := .label, detail := block, rank := 40 }
  | .buffer table _ =>
    some { label := name, kind := .buffer, detail := "BUFFER FOR " ++ table, rank := 20, table }
  | .definition d =>
    some { label := name, kind := kindOfType d.type, detail := definitionDetail d, rank := 20 }
  | .name value isGlobal undefine =>
    if undefine then none
    else
      some { label := "&" ++ name, kind := .name
             detail := if isGlobal then "&GLOBAL-DEFINE" else "&SCOPED-DEFINE"
             documentation := value, rank := 25 }
  | _ => none

/-- The suggestion for an item. -/
def ofItem? (i : Item) : Option Completion :=
  (ofContent? i.name i.content).map fun c => { c with scope := i.scope, line := some i.rootLine }

end Completion

/-- The suggestions for what a source declares, in the order of finding. -/
def ParsedFile.declared (p : ParsedFile) : List Completion :=
  p.items.toList.filterMap Completion.ofItem?

-- ================================================================ known

namespace Completion

/-- A description to show, if there is one. -/
def described (description : String) : Option String :=
  if description = "" then none else some description

/-- The suggestion for a table of a database. -/
def ofTable (database : String) (t : Schema.Table) : Completion :=
  { label := t.name, kind := .table, detail := database, documentation := described t.description
    rank := 50 }

/-- The suggestion for a database. -/
def ofDatabase (d : Schema.Database) : Completion :=
  { label := d.name, kind := .database, detail := d.aliasOf.map ("alias of " ++ ·), rank := 60 }

/-- The suggestion for a sequence. -/
def ofSequence (s : Schema.Sequence) : Completion :=
  { label := s.name, kind := .sequence, detail := "sequence of " ++ s.database, rank := 60 }

/-- The suggestion for a keyword. -/
def ofKeyword (keyword : String) : Completion :=
  { label := Text.upper keyword, kind := .keyword, rank := 90 }

/-- The suggestion for a field. -/
def ofField (f : Schema.Field) : Completion :=
  { label := f.name
    kind := if f.primaryKey then .keyField else .field
    detail := f.dataType ++ (if f.extent = 0 then "" else " EXTENT " ++ toString f.extent)
    documentation := described f.description
    rank := if f.primaryKey then 10 else 15 }

end Completion

/-- The suggestions for the tables of a database. -/
def Schema.Database.completions (d : Schema.Database) : List Completion :=
  d.tables.map (Completion.ofTable d.name)

/-- The suggestions for the fields of the table that `table` or
`database.table` names. -/
def Schema.fieldCompletions (s : Schema) (table : String) : List Completion :=
  ((s.fieldsOf? table).getD []).map Completion.ofField

/-- The suggestions for all that a directory knows but fields. -/
def Directory.completions (d : Directory) : List Completion :=
  (d.schema.databases.flatMap fun db => Completion.ofDatabase db :: db.completions)
    ++ d.schema.sequences.map Completion.ofSequence
    ++ d.keywords.map Completion.ofKeyword

end AblOutline
