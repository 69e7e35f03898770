/-
`ON` and `RUN` statements.
-/
import AblOutline.Item.Basic
import AblOutline.Statement.Fault
namespace AblOutline

namespace Statement

-- =================================================================== ON

/-- The texts of the parts, one blank between them. -/
def joined (parts : List Part) : String := " ".intercalate (parts.map (·.token.text))

/-- The statement names widgets, or stands for all of them. -/
def namesWidgets (s : Statement) : Bool := s.has "OF" || s.has "ANYWHERE"

/-- The trigger that `ON events OF widgets` or `ON events ANYWHERE` sets. -/
def triggerHead (s : Statement) : Item.Trigger :=
  let stop := ((s.find? "OF").or (s.find? "ANYWHERE")).getD s.parts.length
  { events := joined ((s.parts.take stop).drop 1)
    widgets := (s.find? "OF").elim "" fun i => joined (s.parts.drop (i + 1))
    hasBlock := false }

/-- The name of a trigger: its events and widgets. -/
def triggerName (t : Item.Trigger) : String :=
  if t.widgets = "" then t.events else t.events ++ " OF " ++ t.widgets

/-- The word begins the action of the trigger that the statement sets. -/
def startsAction (s : Statement) (word : String) : Bool :=
  s.kind == .on && s.trigger.isNone && decide (2 ≤ s.parts.length)
    && Keyword.isIn word Keyword.triggerActions
    && (Text.same word "DO" || s.namesWidgets)

-- ================================================================== RUN

/-- A `RUN` statement and the token that begins its target. -/
structure RunHead where
  targetToken : Token
  run : Item.Run
deriving DecidableEq, Repr, Inhabited

/-- A part that is no longer of the target: it has a gap before it, or opens
the parameters. -/
def endsTarget (p : Part) : Bool := p.spaced || p.token.isSymbol "("

/-- The name that the parts begin with, up to the first gap or parenthesis,
and the parts after it. -/
def writtenTarget (parts : List Part) : String × List Part :=
  match parts with
  | [] => ("", [])
  | p :: rest =>
    if p.token.isSymbol "(" then ("", parts)
    else
      (String.join ((p :: rest.takeWhile (!endsTarget ·)).map (·.token.unquoted)),
       rest.dropWhile (!endsTarget ·))

/-- The target is an expression, `VALUE(...)`. -/
def hasDynamicTarget (s : Statement) : Bool :=
  (s.token? 1).any (·.isWord "VALUE") && (s.token? 2).any (·.isSymbol "(")

/-- The word after the first `IN` of the parts. -/
def handleIn? (parts : List Part) : Option String :=
  match parts.dropWhile (!·.token.isWord "IN") with
  | _ :: handle :: _ => some handle.token.text
  | _ => none

/-- Reads `RUN target [PERSISTENT] [IN handle] [(parameters)]`. -/
def runHead (s : Statement) : Except AnalysisFault RunHead := do
  let some targetToken := s.token? 1 | throw s.missingName
  let (target, rest) :=
    if s.hasDynamicTarget then group (s.parts.drop 2) else writtenTarget (s.parts.drop 1)
  if target = "" then throw s.missingName
  return {
    targetToken
    run := {
      target
      dynamic := s.hasDynamicTarget
      persistent := rest.any (·.token.isWord "PERSISTENT")
      inHandle := handleIn? rest
      hasParameters := rest.any (·.token.isSymbol "(") } }

end Statement

end AblOutline
