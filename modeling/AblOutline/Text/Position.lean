/-
Places in a text. Lines and columns count from zero; a column counts
characters. CR LF, a lone LF and a lone CR each end one line, so a text
breaks into the same lines on every system that may have written it.
-/
namespace AblOutline

/-- A line and a column, both from zero. -/
structure Position where
  line : Nat
  column : Nat
deriving DecidableEq, Repr, Inhabited

/-- Two places, the first not after the second. -/
structure Span where
  start : Position
  stop : Position
deriving DecidableEq, Repr, Inhabited

/-- Byte offsets of the first byte and of the byte after the last. -/
structure ByteRange where
  start : Nat
  stop : Nat
deriving DecidableEq, Repr, Inhabited

namespace Position

/-- The first place of a text. -/
def origin : Position := ⟨0, 0⟩

/-- The first column of the next line. -/
def nextLine (p : Position) : Position := ⟨p.line + 1, 0⟩

/-- The place one character further on the same line. -/
def nextColumn (p : Position) : Position := ⟨p.line, p.column + 1⟩

/-- The place just after `cs` when it starts at `p`. -/
def after (p : Position) : List Char → Position
  | [] => p
  | '\r' :: '\n' :: rest => p.nextLine.after rest
  | c :: rest =>
    if c = '\r' ∨ c = '\n' then p.nextLine.after rest else p.nextColumn.after rest

/-- The place just after `text` when it starts at `p`. -/
def afterText (p : Position) (text : String) : Position := p.after text.toList

end Position

/-- What `text` covers when it starts at `start`. -/
def Span.ofText (start : Position) (text : String) : Span := ⟨start, start.afterText text⟩

end AblOutline
