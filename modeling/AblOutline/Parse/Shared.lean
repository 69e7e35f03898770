/-
Parses that share a cache. A parse uses the cache of included files in steps
that each take place at once. It gets the tokens of a path; where there are
none it reads the file, and puts the tokens in at a later step, going on with
those that are kept then; at its end it takes out the path of the file that
was parsed. Between two steps of one parse others may do any number of theirs.

    reading    passes tokens, and gets what the places ahead need
    storing    has read a file that the cache had nothing for
    closing    has passed all tokens
    closed     has a result
-/
import AblOutline.Parse.Run
namespace AblOutline

namespace Parse

namespace State

/-- What the current token does to the state, the token ahead not expanded
yet. -/
def takeToken (env : Environment) (steps : Nat) (s : State) (t : Token) : Option State :=
  let skipped := decide (0 < s.source.skip)
  let (ended, s) := s.observe t skipped
  if skipped then some { s with source := { s.source with skip := s.source.skip - 1 } }
  else (s.look env steps t ended).map (·.state)

/-- The places ahead that are expanded before the cursor moves on. -/
def places (s : State) : List Ahead :=
  if s.source.skip = 0 && !s.inFalseBranch then [.nearest] else []

/-- The state over a cache. -/
def withCache (s : State) (cache : TokenCache) : State :=
  { s with source := { s.source with cache } }

/-- The file that the expansion of a place needs, with its tokens, if it can be
read: what it puts into a cache that has nothing. -/
def fileAt? (env : Environment) (s : State) (a : Ahead) : Option (String × List Token) :=
  ((s.withCache {}).expandAt env a true).source.cache.entries.head?

end State

/-- What a parse is to do next. -/
inductive Phase where
  /-- The places are to be expanded, then the cursor moves on. -/
  | reading (places : List Ahead)
  /-- The tokens of a path are to be put in, for a place and those after it. -/
  | storing (path : String) (tokens : List Token) (place : Ahead) (places : List Ahead)
  | closing
  | closed
deriving Repr, Inhabited

/-- A parse that shares a cache with others. -/
structure Reader where
  state : State
  phase : Phase
deriving Repr, Inhabited

namespace Reader

/-- A parse of `text` that has not begun. -/
def start (text : String) (path : Option String) : Reader :=
  ⟨.opened {} text path, .reading [.nearest, Ahead.nearest.next]⟩

/-- Expands a place over a cache. -/
def expand (env : Environment) (c : TokenCache) (s : State) (a : Ahead) (places : List Ahead) :
    TokenCache × Reader :=
  let s := (s.withCache c).expandAt env a true
  (s.source.cache, ⟨s, .reading places⟩)

/-- Moves on to the next token. -/
def advance? (env : Environment) (steps : Nat) (s : State) : Option Reader :=
  match s.advance? with
  | none => some ⟨s, .closing⟩
  | some s =>
    let t := s.source.cursor.current
    if t.isEof then some ⟨s, .closing⟩
    else (s.takeToken env steps t).map fun s => ⟨s, .reading s.places⟩

/-- The next step of a parse over the cache as it is now. -/
def step? (env : Environment) (steps : Nat) (c : TokenCache) (r : Reader) :
    Option (TokenCache × Reader) :=
  match r.phase with
  | .reading [] => (advance? env steps r.state).map fun r => (c, r)
  | .reading (a :: places) =>
    match r.state.fileAt? env a with
    | none => some (expand env c r.state a places)
    | some (path, tokens) =>
      if (c.get? path).isSome then some (expand env c r.state a places)
      else some (c, { r with phase := .storing path tokens a places })
  | .storing path tokens a places => some (expand env (c.insert path tokens) r.state a places)
  | .closing =>
    some ((r.state.source.chain.path? 0).elim c c.invalidate, { r with phase := .closed })
  | .closed => none

/-- The result of a parse that is closed. -/
def file? (env : Environment) (r : Reader) : Option ParsedFile :=
  match r.phase with
  | .closed => some (Result.ofState env.options (r.state.finish env)).file
  | _ => none

end Reader

/-- Parses over one cache. -/
structure Sharing where
  cache : TokenCache
  readers : List Reader
deriving Repr, Inhabited

namespace Sharing

/-- Parses of several texts that have not begun. -/
def start (cache : TokenCache) (jobs : List (String × Option String)) : Sharing :=
  ⟨cache, jobs.map fun (text, path) => .start text path⟩

/-- One of the parses does its next step. -/
def move? (env : Environment) (steps : Nat) (i : Nat) (w : Sharing) : Option Sharing := do
  let r ← w.readers[i]?
  let (cache, r) ← r.step? env steps w.cache
  some ⟨cache, w.readers.set i r⟩

end Sharing

end Parse

end AblOutline
