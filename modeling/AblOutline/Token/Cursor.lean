/-
A cursor in a stream of tokens. It holds the tokens it has passed and those
that lie ahead; the last one passed is the current token. All changes are made
ahead of it, so what has been passed stays as it was read.
-/
import AblOutline.Token.Basic
namespace AblOutline

/-- A position ahead of a cursor, by the number of tokens in between. -/
structure Ahead where
  skipped : Nat
deriving DecidableEq, Repr, Inhabited

namespace Ahead

/-- The position right after the current token. -/
def nearest : Ahead := ⟨0⟩

/-- One position further. -/
def next (a : Ahead) : Ahead := ⟨a.skipped + 1⟩

/-- How far the position is from the current token: at least one. -/
def distance (a : Ahead) : Nat := a.skipped + 1

/-- The position at that distance; the current token is at none. -/
def ofDistance? : Nat → Option Ahead
  | 0 => none
  | n + 1 => some ⟨n⟩

end Ahead

/-- A place in a stream of tokens. -/
structure Cursor where
  /-- The tokens passed, the current one first. -/
  passed : List Token
  /-- The tokens not reached yet, the nearest first. -/
  ahead : List Token
  /-- What is seen beyond either end. -/
  beyond : Token
deriving Repr, Inhabited

namespace Cursor

-- ================================================================ places

/-- The cursor before the first of `ts`. Beyond the ends it sees the end mark
of the stream, or one at its very start when the stream has none. -/
def ofTokens (ts : List Token) : Cursor :=
  { passed := []
    ahead := ts
    beyond := (ts.getLast?.filter (·.isEof)).getD (Token.eof .origin 0) }

/-- The stream as it stands. -/
def tokens (c : Cursor) : List Token := c.passed.reverse ++ c.ahead

/-- The number of tokens in the stream. -/
def size (c : Cursor) : Nat := c.passed.length + c.ahead.length

/-- The index of the current token, when there is one. -/
def index? (c : Cursor) : Option Nat :=
  if c.passed.isEmpty then none else some (c.passed.length - 1)

/-- Moves on by one token, if there is one. -/
def advance? (c : Cursor) : Option Cursor :=
  match c.ahead with
  | [] => none
  | t :: rest => some { c with passed := t :: c.passed, ahead := rest }

/-- The index that a position ahead has in the stream, at most that of its
end. -/
def indexOf (c : Cursor) (a : Ahead) : Nat := min (c.passed.length + a.skipped) c.size

-- =============================================================== looking

/-- The token at `offset` from the current one, if the stream reaches so
far. -/
def at? (c : Cursor) (offset : Int) : Option Token :=
  if offset ≤ 0 then c.passed[(-offset).toNat]? else c.ahead[(offset - 1).toNat]?

/-- The token at `offset` from the current one. -/
def peek (c : Cursor) (offset : Int) : Token := (c.at? offset).getD c.beyond

/-- The token at a position ahead. -/
def peekAhead (c : Cursor) (a : Ahead) : Token := c.ahead[a.skipped]?.getD c.beyond

/-- The current token. -/
def current (c : Cursor) : Token := c.passed.head?.getD c.beyond

/-- The tokens from `offset` on to the end; none when the stream does not
reach there. -/
def onward (c : Cursor) (offset : Int) : List Token :=
  if 0 < offset then c.ahead.drop (offset - 1).toNat
  else
    let back := (-offset).toNat
    if back < c.passed.length then (c.passed.take (back + 1)).reverse ++ c.ahead else []

/-- The tokens from `offset` back to the start, nearest first; none when the
stream does not reach there. -/
def backward (c : Cursor) (offset : Int) : List Token :=
  if offset ≤ 0 then c.passed.drop (-offset).toNat
  else
    let on := offset.toNat
    if on ≤ c.ahead.length then (c.ahead.take on).reverse ++ c.passed else []

/-- The first of `ts` that is wanted or marks the end, and its offset, where
the first of all is at `offset` and each further one `step` on. -/
def scan (wanted : Token → Bool) (beyond : Token) (offset step : Int) :
    List Token → Int × Token
  | [] => (offset, beyond)
  | t :: rest =>
    if t.isEof || wanted t then (offset, t) else scan wanted beyond (offset + step) step rest

/-- The nearest wanted token or end mark after `origin` in the direction
given, and its offset. -/
def find (c : Cursor) (origin : Int) (back : Bool) (wanted : Token → Bool) : Int × Token :=
  if back then scan wanted c.beyond (origin - 1) (-1) (c.backward (origin - 1))
  else scan wanted c.beyond (origin + 1) 1 (c.onward (origin + 1))

/-- The nearest token of that kind after `origin`. -/
def findKind (c : Cursor) (origin : Int) (kind : TokenKind) (back : Bool) : Int × Token :=
  c.find origin back (·.kind == kind)

/-- The nearest token after `origin` whose kind is none of those. -/
def findOther (c : Cursor) (origin : Int) (kinds : List TokenKind) (back : Bool) : Int × Token :=
  c.find origin back (!kinds.contains ·.kind)

/-- The next token that carries meaning. -/
def nextSignificant (c : Cursor) : Token := (c.findOther 0 TokenKind.trivia false).2

/-- The last token before the current one that carries meaning. -/
def lastSignificant (c : Cursor) : Token := (c.findOther 0 TokenKind.trivia true).2

-- ============================================================== changing

/-- Puts a token in the place of the one at `a`, if there is one. -/
def replace (c : Cursor) (a : Ahead) (t : Token) : Cursor :=
  { c with ahead := c.ahead.set a.skipped t }

/-- Puts tokens in, the first of them at `a` or at the end. -/
def insert (c : Cursor) (a : Ahead) (ts : List Token) : Cursor :=
  { c with ahead := c.ahead.take a.skipped ++ ts ++ c.ahead.drop a.skipped }

/-- Takes out up to `count` tokens from `a` on. -/
def remove (c : Cursor) (a : Ahead) (count : Nat) : Cursor :=
  { c with ahead := c.ahead.take a.skipped ++ c.ahead.drop (a.skipped + count) }

/-- Puts tokens in the place of the one at `a`, if there is one. -/
def splice (c : Cursor) (a : Ahead) (ts : List Token) : Cursor :=
  match c.ahead.drop a.skipped with
  | [] => c
  | _ :: rest => { c with ahead := c.ahead.take a.skipped ++ ts ++ rest }

-- ================================================================= laws

@[simp] theorem tokens_ofTokens (ts : List Token) : (ofTokens ts).tokens = ts := by
  simp [ofTokens, tokens]

/-- Beyond the ends there is an end mark. -/
theorem isEof_beyond_ofTokens (ts : List Token) : (ofTokens ts).beyond.isEof = true := by
  unfold ofTokens
  dsimp only
  cases hlast : ts.getLast?.filter (·.isEof) with
  | none => rfl
  | some t => exact (Option.filter_eq_some_iff.1 hlast).2

/-- Moving on leaves the stream as it is. -/
theorem tokens_advance? {c d : Cursor} (h : c.advance? = some d) : d.tokens = c.tokens := by
  obtain ⟨passed, ahead, beyond⟩ := c
  cases ahead with
  | nil => simp [advance?] at h
  | cons t rest =>
    obtain rfl := Option.some.inj h
    simp [tokens]

@[simp] theorem passed_replace (c : Cursor) (a : Ahead) (t : Token) :
    (c.replace a t).passed = c.passed := rfl

@[simp] theorem passed_insert (c : Cursor) (a : Ahead) (ts : List Token) :
    (c.insert a ts).passed = c.passed := rfl

@[simp] theorem passed_remove (c : Cursor) (a : Ahead) (count : Nat) :
    (c.remove a count).passed = c.passed := rfl

@[simp] theorem passed_splice (c : Cursor) (a : Ahead) (ts : List Token) :
    (c.splice a ts).passed = c.passed := by
  unfold splice
  split <;> rfl

end Cursor

end AblOutline
