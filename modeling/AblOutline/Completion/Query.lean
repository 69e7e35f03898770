/-
Completing the word before a cursor. After a dot the members of what stands
before it are suggested; otherwise all declarations that can be used on the
line, then all that the directory knows.
-/
import AblOutline.Completion.Candidates
import AblOutline.Text.Split
import AblOutline.Text.Word
namespace AblOutline

namespace Completion

/-- What a user has typed. -/
inductive Typed where
  /-- The beginning of a member of what `qualifier` names. -/
  | member (qualifier start : String)
  | plain (start : String)
deriving DecidableEq, Repr, Inhabited

/-- What a user has typed on a line up to a column. -/
def Typed.ofLine (line : String) (column : Nat) : Typed :=
  let word := Text.wordBefore line column
  match Text.splitLast? '.' word with
  | some (qualifier, start) => if qualifier = "" then .plain word else .member qualifier start
  | none => .plain word

/-- The beginning of the word to complete. -/
def Typed.start : Typed → String
  | .member _ start | .plain start => start

/-- The item is the file. -/
def isRoot (p : ParsedFile) (item : ItemId) : Bool := p.root?.any (·.id == item)

/-- The scope of the item is open on that line. -/
def isOpenOn (p : ParsedFile) (item : ItemId) (line : Nat) : Bool :=
  (p.line? line).any fun l => l.frames.any (·.item == some item)

/-- A declaration can be used on that line: a routine always, a preprocessor
name from its own line on, and anything in the scope where it is declared. -/
def isVisible (p : ParsedFile) (line : Nat) (c : Completion) : Bool :=
  if c.kind.isRoutine then true
  else if c.kind == .name && c.line.any (line < ·) then false
  else
    match c.scope with
    | none => true
    | some scope => isRoot p scope || isOpenOn p scope line

/-- The table behind the first buffer of that name. -/
def bufferTable? (declared : List Completion) (name : String) : Option String :=
  (declared.find? fun c => c.kind == .buffer && Text.same c.label name).bind (·.table)

/-- The members of what a qualifier names: the tables of a database, or the
fields of a table or of the table behind a buffer. -/
def members (declared : List Completion) (schema : Schema) (qualifier : String) :
    List Completion :=
  match schema.database? qualifier with
  | some d => d.completions
  | none => schema.fieldCompletions ((bufferTable? declared qualifier).getD qualifier)

/-- All that may be suggested for what was typed on that line. -/
def candidates (p : ParsedFile) (declared : List Completion) (directory : Directory)
    (line : Nat) : Typed → List Completion
  | .member qualifier _ => members declared directory.schema qualifier
  | .plain _ => declared.filter (isVisible p line) ++ directory.completions

end Completion

/-- The suggestions at a column of a line with that text, where `declared` are
those for what the source declares. -/
def ParsedFile.completions (p : ParsedFile) (declared : List Completion) (directory : Directory)
    (text : String) (line column : Nat) : List Completion :=
  let typed := Completion.Typed.ofLine text column
  Completion.ordered
    ((Completion.candidates p declared directory line typed).filter (·.startsWith typed.start))

end AblOutline
