/-
`DEFINE` and `VAR` statements.
-/
import AblOutline.Item.Basic
import AblOutline.Statement.Fault
namespace AblOutline

namespace Statement

-- ============================================================ accessors

/-- The parts, last first, before the parenthesis that the innermost of
`depth` closing ones belongs to; nothing when they end before it. -/
def beforeGroup? (depth : Nat) : List Part → Option (List Part)
  | [] => none
  | p :: rest =>
    if p.token.isSymbol ")" then beforeGroup? (depth + 1) rest
    else if p.token.isSymbol "(" then
      if depth ≤ 1 then some rest else beforeGroup? (depth - 1) rest
    else beforeGroup? depth rest

/-- The `GET`, `SET` or `TRIGGERS` that ends the statement, alone or followed
by one group in parentheses. -/
def accessor? (s : Statement) : Option Token := do
  let last ← s.parts.getLast?
  let parts ← if last.token.isSymbol ")" then beforeGroup? 0 s.parts.reverse else s.parts.reverse
  let p ← parts.head?
  if ["GET", "SET", "TRIGGERS"].any p.token.isWord then some p.token else none

-- =============================================================== DEFINE

/-- A token that may stand between `DEFINE` and what it defines. -/
def isDefineModifier (t : Token) : Bool :=
  t.kind == .word &&
    (Keyword.isIn t.text Keyword.defineModifiers || Text.same t.text "NO-UNDO")

/-- What a `DEFINE` statement defines, with the token of its name. -/
inductive Defined where
  /-- It is not known what. -/
  | nothing
  /-- A buffer for the named table, which the statement calls temporary or
  not. -/
  | buffer (nameToken : Token) (name table : String) (temporary : Bool)
  | event (nameToken : Token) (name : String)
  | definition (nameToken : Token) (name : String) (definition : Item.Definition)
deriving DecidableEq, Repr, Inhabited

/-- Reads `name FOR [TEMP-TABLE] table` of a buffer, the name at that
index. -/
def bufferAt (s : Statement) (index : Nat) : Except AnalysisFault Defined := do
  let (nameToken, name) ← s.nameAt index
  let place := (s.find? "FOR").map (· + 1)
  let temporary := (place.bind s.token?).any (·.isWord "TEMP-TABLE")
  let place := if temporary then place.map (· + 1) else place
  return .buffer nameToken name (((place.bind s.token?).map (·.text)).getD "") temporary

/-- Index of the name of a parameter, whose first word after `PARAMETER` is at
`index`: past `TABLE [FOR]` and its like. -/
def parameterNameIndex (s : Statement) (index : Nat) : Nat :=
  if (s.token? index).any fun t =>
      Keyword.isIn t.text ["TABLE", "DATASET", "TABLE-HANDLE", "DATASET-HANDLE"] then
    if (s.token? (index + 1)).any (·.isWord "FOR") then index + 2 else index + 1
  else index

/-- Reads the name at that index and the type of anything but a buffer. -/
def namedAt (s : Statement) (type : DefineType) (modifiers : List String) (index : Nat) :
    Except AnalysisFault Defined := do
  let (nameToken, name) ← s.nameAt index
  if type = .event then return .event nameToken name
  let asType := (s.outside? "AS").bind s.typeAfter?
  return .definition nameToken name {
    type
    asType := asType.getD ""
    primitive := asType.map Primitive.ofWord
    like := ((s.outside? "LIKE").bind fun i => s.token? (i + 1)).map (·.text)
    modifiers }

/-- Reads `DEFINE [modifiers] type name ...`. -/
def defined (s : Statement) : Except AnalysisFault Defined := do
  let leading := ((s.parts.drop 1).takeWhile fun p => isDefineModifier p.token).map
    fun p => Text.upper p.token.text
  let typeIndex := leading.length + 1
  let some type := (s.token? typeIndex).bind fun t => DefineType.ofWord? t.text
    | return .nothing
  let index := typeIndex + 1
  let modifiers :=
    if s.has "NO-UNDO" && !leading.contains "NO-UNDO" then leading ++ ["NO-UNDO"] else leading
  match type with
  | .buffer => s.bufferAt index
  | .parameter =>
    if (s.token? index).any fun t => Text.same t.text "BUFFER" then s.bufferAt (index + 1)
    else s.namedAt type modifiers (s.parameterNameIndex index)
  | _ => s.namedAt type modifiers index

-- ================================================================== VAR

/-- The names in a list of variables with initial values, where `depth`
brackets are open and a name may come next or not. -/
def variablesFrom (depth : Nat) (nameNext : Bool) : List Part → List Token
  | [] => []
  | p :: rest =>
    let t := p.token
    if t.isSymbol "(" || t.isSymbol "[" then variablesFrom (depth + 1) nameNext rest
    else if t.isSymbol ")" || t.isSymbol "]" then variablesFrom (depth - 1) nameNext rest
    else if t.isSymbol "," && depth == 0 then variablesFrom depth true rest
    else if nameNext && depth == 0 && t.kind == .word then t :: variablesFrom depth false rest
    else variablesFrom depth nameNext rest

/-- The variables of a `VAR` statement and what they have in common. -/
structure Variables where
  names : List Token
  definition : Item.Definition
deriving DecidableEq, Repr, Inhabited

/-- Reads `VAR [modifiers] [CLASS] type name [= value], ...`. -/
def varHead (s : Statement) : Except AnalysisFault Variables := do
  let modifiers := ((s.parts.drop 1).takeWhile fun p =>
    Keyword.isIn p.token.text Keyword.defineModifiers).map fun p => Text.upper p.token.text
  let afterModifiers := modifiers.length + 1
  let index :=
    if (s.token? afterModifiers).any (·.isWord "CLASS") then afterModifiers + 1 else afterModifiers
  let some type := s.token? index | throw s.missingName
  let names := variablesFrom 0 true (s.parts.drop (index + 1))
  if names.isEmpty then throw s.missingName
  return {
    names
    definition := {
      type := .variable
      asType := type.text
      primitive := some (Primitive.ofWord type.text)
      like := none
      modifiers } }

end Statement

end AblOutline
