/-
Why a statement or directive could not be made sense of. Such a fault ends the
look at that statement only; the parse goes on with the next token.
-/
import AblOutline.Statement.Basic
namespace AblOutline

/-- Why a statement or directive could not be made sense of. -/
inductive AnalysisFault where
  /-- The statement or directive that `keyword` begins names nothing. -/
  | missingName (keyword : String) (line : Nat)
  /-- There is no such item. -/
  | danglingItem (item : ItemId)
  /-- Not even the file is open. -/
  | noScope (line : Nat)
deriving DecidableEq, Repr, Inhabited

namespace Statement

/-- The statement names nothing. -/
def missingName (s : Statement) : AnalysisFault :=
  .missingName (s.first?.elim "" (·.text)) (s.first?.elim 0 (·.lineNumber))

/-- The first token. -/
def opening (s : Statement) : Except AnalysisFault Token :=
  match s.first? with
  | some t => .ok t
  | none => .error s.missingName

/-- The name at that index, a word or a quoted text, and its token. -/
def nameAt (s : Statement) (index : Nat) : Except AnalysisFault (Token × String) :=
  match s.token? index with
  | some t =>
    if t.kind = .word ∨ t.kind = .string then .ok (t, t.unquoted) else .error s.missingName
  | none => .error s.missingName

/-- The type name after the part at that index, past the word `CLASS`. -/
def typeAfter? (s : Statement) (index : Nat) : Option String :=
  match s.token? (index + 1) with
  | some t => if t.isWord "CLASS" then (s.token? (index + 2)).map (·.text) else some t.text
  | none => none

end Statement

end AblOutline
