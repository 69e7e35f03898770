/-
The heads of procedures, functions and methods.
-/
import AblOutline.Item.Basic
import AblOutline.Statement.Fault
namespace AblOutline

namespace Statement

/-- The head of a procedure. -/
structure ProcedureHead where
  opener : Token
  nameToken : Token
  name : String
  procedure : Item.Procedure
deriving DecidableEq, Repr, Inhabited

/-- Reads `PROCEDURE name [EXTERNAL library] [PRIVATE] [IN SUPER]`. -/
def procedureHead (s : Statement) : Except AnalysisFault ProcedureHead := do
  let opener ← s.opening
  let (nameToken, name) ← s.nameAt 1
  return {
    opener, nameToken, name
    procedure := {
      external := (s.after? "EXTERNAL").map (·.unquoted)
      isPrivate := s.has "PRIVATE"
      inSuper := (s.after? "IN").any (·.isWord "SUPER") } }

/-- The head of a function. -/
structure FunctionHead where
  opener : Token
  nameToken : Token
  name : String
  returnType : String
  parameters : String
  forward : Bool
  inHandle : Option String
  isPrivate : Bool
deriving DecidableEq, Repr, Inhabited

/-- Reads `FUNCTION name RETURNS [CLASS] type [PRIVATE] [(parameters)]
[FORWARD | IN handle]`. -/
def functionHead (s : Statement) : Except AnalysisFault FunctionHead := do
  let opener ← s.opening
  let (nameToken, name) ← s.nameAt 1
  return {
    opener, nameToken, name
    returnType := ((s.outside? "RETURNS").bind s.typeAfter?).getD ""
    parameters := s.firstGroup
    forward := (s.outside? "FORWARD").isSome
    inHandle := ((s.outside? "IN").bind fun i => s.token? (i + 1)).map (·.text)
    isPrivate := s.has "PRIVATE" }

/-- The function has its body here: its head ends with a colon and does not
point elsewhere. -/
def FunctionHead.hasBody (head : FunctionHead) (colon : Bool) : Bool :=
  colon && !head.forward && head.inHandle.isNone

/-- The head of a method, constructor or destructor. -/
structure MethodHead where
  opener : Token
  nameToken : Token
  name : String
  method : Item.Method
deriving DecidableEq, Repr, Inhabited

/-- What the statement makes of a method. -/
def methodKind (s : Statement) : Item.MethodKind :=
  match s.kind with
  | .constructor => .constructor
  | .destructor => .destructor
  | _ => .method

/-- A token that may be the type of a method. -/
def isMethodType (t : Token) : Bool :=
  t.kind == .word && !t.isWord "CLASS" && !Keyword.isIn t.text Keyword.methodModifiers

/-- Index of the name of a method: the part before the parameters, or the last
part; the first part is no name. -/
def methodNameIndex? (s : Statement) : Option Nat :=
  let paren := (s.parts.findIdx? (·.token.isSymbol "(")).getD s.parts.length
  if 2 ≤ paren then some (paren - 1) else none

/-- Reads `METHOD [modifiers] [CLASS] type name (parameters)`. -/
def methodHead (s : Statement) (colon : Bool) : Except AnalysisFault MethodHead := do
  let opener ← s.opening
  let some index := s.methodNameIndex? | throw s.missingName
  let (nameToken, name) ← s.nameAt index
  let between := ((s.parts.take index).drop 1).map (·.token)
  let modifiers := between.filter fun t => Keyword.isIn t.text Keyword.methodModifiers
  let returnType :=
    match s.methodKind with
    | .method => ((between.reverse.find? isMethodType).map (·.text)).getD ""
    | _ => ""
  return {
    opener, nameToken, name
    method := {
      kind := s.methodKind
      returnType
      modifiers := modifiers.map fun t => Text.upper t.text
      parameters := s.firstGroup
      declarationOnly := !colon } }

end Statement

end AblOutline
