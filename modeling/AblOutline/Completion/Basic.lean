/-
Suggestions for completing a word.
-/
import AblOutline.Nesting
import AblOutline.Text.Case
namespace AblOutline

/-- What a suggestion stands for. -/
inductive CompletionKind where
  | keyword
  | database
  | table
  | tempTable
  | field
  | keyField
  | sequence
  | procedure
  | function
  | method
  | var
  | parameter
  | buffer
  | widget
  | name
  | label
deriving DecidableEq, Repr, Inhabited

namespace CompletionKind

/-- All kinds. -/
def all : List CompletionKind :=
  [.keyword, .database, .table, .tempTable, .field, .keyField, .sequence, .procedure, .function,
   .method, .var, .parameter, .buffer, .widget, .name, .label]

/-- The name of the kind in records. -/
def recordName : CompletionKind → String
  | .keyword => "Keyword"
  | .database => "Database"
  | .table => "Table"
  | .tempTable => "TempTable"
  | .field => "Field"
  | .keyField => "PrimaryKeyField"
  | .sequence => "Sequence"
  | .procedure => "Procedure"
  | .function => "Function"
  | .method => "Method"
  | .var => "Variable"
  | .parameter => "Parameter"
  | .buffer => "Buffer"
  | .widget => "Widget"
  | .name => "PreprocVariable"
  | .label => "Label"

/-- The number by which editors know the kind. -/
def number : CompletionKind → Nat
  | .keyword => 14
  | .database => 9
  | .table | .tempTable | .buffer => 22
  | .field | .keyField => 5
  | .sequence | .name => 21
  | .procedure | .function => 3
  | .method => 2
  | .var | .parameter => 6
  | .widget => 7
  | .label => 18

/-- A routine, which may be used before its declaration. -/
def isRoutine : CompletionKind → Bool
  | .procedure | .function | .method => true
  | _ => false

end CompletionKind

/-- A suggestion. -/
structure Completion where
  label : String
  kind : CompletionKind
  detail : Option String := none
  documentation : Option String := none
  /-- Suggestions of a smaller rank come first. -/
  rank : Nat
  /-- The item in whose scope it is declared; nothing for what is known
  everywhere. -/
  scope : Option ItemId := none
  /-- The line of its declaration in the file being read. -/
  line : Option Nat := none
  /-- The table behind a buffer. -/
  table : Option String := none
deriving DecidableEq, Repr, Inhabited

namespace Completion

/-- The label begins with what was typed, whatever the case. -/
def startsWith (c : Completion) (typed : String) : Bool := Text.startsSame c.label typed

/-- Keeps of all suggestions of one label, whatever its case, the first; those
with a label in `seen` are dropped. -/
def distinctFrom (seen : List String) : List Completion → List Completion
  | [] => []
  | c :: rest =>
    let key := Text.lower c.label
    if seen.contains key then distinctFrom seen rest
    else c :: distinctFrom (key :: seen) rest

/-- The suggestions by rank, those of one rank as they come, and of all with
one label only the first. -/
def ordered (cs : List Completion) : List Completion :=
  distinctFrom [] (cs.mergeSort fun a b => decide (a.rank ≤ b.rank))

end Completion

end AblOutline
