/-
What a statement is, told by its first word. Many keywords may be shortened
(`DEF`, `PROC`), down to a least length that keeps them apart.
-/
import AblOutline.Text.Case
namespace AblOutline

/-- What a statement declares, opens or closes. -/
inductive StatementKind where
  | procedure
  | function
  | method
  | constructor
  | destructor
  | on
  | run
  | define
  /-- `VAR type name`. -/
  | var
  | close
  /-- The head of a block: `DO`, `FOR`, `CLASS` and the like. -/
  | block
  /-- `GET` or `SET` of a property. -/
  | accessor
  | other
deriving DecidableEq, Repr, Inhabited

namespace Keyword

/-- First words that open a block of no special kind. -/
def blocks : List String :=
  ["DO", "FOR", "REPEAT", "CASE", "CATCH", "FINALLY", "CLASS", "INTERFACE", "ENUM"]

/-- Words after which the next word begins a statement of its own. -/
def restarts : List String := ["THEN", "ELSE", "OTHERWISE"]

/-- Words that begin the action of a trigger. -/
def triggerActions : List String :=
  ["RUN", "DO", "APPLY", "ASSIGN", "MESSAGE", "RETURN", "PUBLISH", "DISPLAY"]

/-- Words that may stand between `DEFINE` and what it defines. -/
def defineModifiers : List String :=
  ["NEW", "GLOBAL", "SHARED", "PRIVATE", "PROTECTED", "PUBLIC", "PACKAGE-PRIVATE",
   "PACKAGE-PROTECTED", "STATIC", "ABSTRACT", "OVERRIDE", "SERIALIZABLE", "NON-SERIALIZABLE",
   "INPUT", "OUTPUT", "INPUT-OUTPUT", "RETURN"]

/-- Modifiers in the head of a method, constructor or destructor. -/
def methodModifiers : List String :=
  ["PUBLIC", "PRIVATE", "PROTECTED", "PACKAGE-PRIVATE", "PACKAGE-PROTECTED", "STATIC",
   "ABSTRACT", "OVERRIDE", "FINAL"]

/-- The word is in a list of capital words, whatever its case. -/
def isIn (word : String) (list : List String) : Bool := list.contains (Text.upper word)

end Keyword

namespace StatementKind

/-- The kind of a statement whose first word is `word`. -/
def ofWord (word : String) : StatementKind :=
  match Text.upper word with
  | "FUNCTION" => .function
  | "METHOD" => .method
  | "CONSTRUCTOR" => .constructor
  | "DESTRUCTOR" => .destructor
  | "ON" => .on
  | "RUN" => .run
  | "VAR" => .var
  | "END" => .close
  | "GET" | "SET" => .accessor
  | _ =>
    if Keyword.isIn word Keyword.blocks then .block
    else if Text.abbreviates word "PROCEDURE" 5 then .procedure
    else if Text.abbreviates word "DEFINE" 3 then .define
    else .other

/-- A statement of this kind opens a routine when it ends with a colon. -/
def isRoutine : StatementKind → Bool
  | .procedure | .function | .method | .constructor | .destructor => true
  | _ => false

/-- In a statement of this kind a word before a parenthesis declares
parameters and calls no function. -/
def isHeader (kind : StatementKind) : Bool :=
  kind.isRoutine || kind == .define || kind == .var || kind == .accessor

/-- The name of the kind in reports. -/
def name : StatementKind → String
  | .procedure => "Procedure"
  | .function => "Function"
  | .method => "Method"
  | .constructor => "Constructor"
  | .destructor => "Destructor"
  | .on => "On"
  | .run => "Run"
  | .define => "Define"
  | .var => "Var"
  | .close => "End"
  | .block => "Block"
  | .accessor => "Accessor"
  | .other => "Other"

end StatementKind

end AblOutline
