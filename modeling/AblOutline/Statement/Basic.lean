/-
Statements as a list of the tokens that carry meaning. A part remembers
whether anything stood between it and the part before it, since a file name in
a `RUN` statement is written without a gap.
-/
import AblOutline.Keyword.Statement
import AblOutline.Nesting
namespace AblOutline

/-- A token of a statement. -/
structure Part where
  token : Token
  /-- White space, a comment or a line break stands before it. -/
  spaced : Bool
deriving DecidableEq, Repr, Inhabited

/-- A statement, or as much of one as has been read. -/
structure Statement where
  kind : StatementKind := .other
  parts : List Part := []
  /-- The trigger item whose action the statement is. -/
  trigger : Option ItemId := none
deriving DecidableEq, Repr, Inhabited

namespace Statement

/-- No part has been read. -/
def isEmpty (s : Statement) : Bool := s.parts.isEmpty

/-- The token at that index. -/
def token? (s : Statement) (index : Nat) : Option Token := s.parts[index]?.map (·.token)

/-- The first token. -/
def first? (s : Statement) : Option Token := s.token? 0

/-- The statement with one more part. -/
def add (s : Statement) (p : Part) : Statement := { s with parts := s.parts ++ [p] }

-- ================================================================ words

/-- Index of the first part that is the word. -/
def find? (s : Statement) (word : String) : Option Nat :=
  s.parts.findIdx? (·.token.isWord word)

/-- Some part is the word. -/
def has (s : Statement) (word : String) : Bool := s.parts.any (·.token.isWord word)

/-- The token after the first part that is the word. -/
def after? (s : Statement) (word : String) : Option Token :=
  (s.find? word).bind fun i => s.token? (i + 1)

/-- Index of the first part that is the word and stands outside parentheses,
where `index` counts the parts before `parts` and `depth` the parentheses
open there. -/
def outsideFrom? (word : String) (index depth : Nat) : List Part → Option Nat
  | [] => none
  | p :: rest =>
    if p.token.isSymbol "(" then outsideFrom? word (index + 1) (depth + 1) rest
    else if p.token.isSymbol ")" then outsideFrom? word (index + 1) (depth - 1) rest
    else if depth = 0 && p.token.isWord word then some index
    else outsideFrom? word (index + 1) depth rest

/-- Index of the first part that is the word and stands outside
parentheses. -/
def outside? (s : Statement) (word : String) : Option Nat := outsideFrom? word 0 0 s.parts

-- =============================================================== groups

/-- The text of the parts, one blank where some gap stood. -/
def gapped (text : String) (p : Part) : String :=
  (if p.spaced && text != "" then text ++ " " else text) ++ p.token.text

/-- The text up to the parenthesis that closes the outermost of `depth` open
ones, after `text`, and the parts after that parenthesis. -/
def groupFrom (depth : Nat) (text : String) : List Part → String × List Part
  | [] => (text, [])
  | p :: rest =>
    if p.token.isSymbol "(" then
      groupFrom (depth + 1) (if depth = 0 then text else gapped text p) rest
    else if p.token.isSymbol ")" then
      if depth ≤ 1 then (text, rest) else groupFrom (depth - 1) (gapped text p) rest
    else groupFrom depth (gapped text p) rest

/-- The text between the parenthesis that the parts begin with and the one
that closes it, and the parts after that one. -/
def group (parts : List Part) : String × List Part := groupFrom 0 "" parts

/-- The parts from the first opening parenthesis on. -/
def fromGroup (s : Statement) : List Part :=
  s.parts.dropWhile (!·.token.isSymbol "(")

/-- The text of the first group in parentheses. -/
def firstGroup (s : Statement) : String := (group s.fromGroup).1

-- ============================================================== targets

/-- All parts after the first are written without a gap, and so is the next
one, which `spaced` tells of: the target of a `RUN` is still being
written. -/
def inTarget (s : Statement) (spaced : Bool) : Bool :=
  s.kind == .run &&
    match s.parts with
    | [] => false
    | [_] => true
    | _ :: _ :: rest => !spaced && rest.all (!·.spaced)

end Statement

end AblOutline
