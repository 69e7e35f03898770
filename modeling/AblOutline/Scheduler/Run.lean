/-
A scheduler whose workers take turns: the oldest one works until it is gone.

A request may wait before it is made. Each request for a source starts a timer
and gets a number, one more than the number before; when a timer ends, the
request is made only if its number is still the last one of its source.
-/
import AblOutline.Scheduler.Worker
namespace AblOutline

namespace Scheduler

-- ============================================================== waiting

/-- The time that a request waits where nothing else is set, in
milliseconds. -/
def defaultDebounce : Nat := 800

/-- The number of the last request that waits or has waited, by source. -/
structure Waiting where
  last : List (String × Nat) := []
deriving DecidableEq, Repr, Inhabited

namespace Waiting

/-- The number of the last request for a source. -/
def last? (w : Waiting) (id : String) : Option Nat := w.last.lookup id

/-- Notes a request for a source, and gives its number. -/
def start (w : Waiting) (id : String) : Waiting × Nat :=
  let number := (w.last? id).getD 0 + 1
  (⟨(id, number) :: w.last⟩, number)

/-- The timer of that request may make it when it ends. -/
def isLast (w : Waiting) (id : String) (number : Nat) : Bool := w.last? id == some number

/-- Forgets the requests for a source. -/
def forget (w : Waiting) (id : String) : Waiting := ⟨w.last.filter (·.1 != id)⟩

/-- Notes several requests for a source at once, and gives their numbers. -/
def startAll (w : Waiting) (id : String) : Nat → Waiting × List Nat
  | 0 => (w, [])
  | times + 1 =>
    let (w, number) := w.start id
    let (w, rest) := w.startAll id times
    (w, number :: rest)

end Waiting

end Scheduler

-- ================================================================= runs

/-- A scheduler of parses. -/
structure Scheduler where
  world : Scheduler.World
  waiting : Scheduler.Waiting := {}

namespace Scheduler

/-- The oldest worker has asked for a text. -/
def isCalled (w : World) : Bool :=
  match w.workers with
  | ⟨_, _, .called _⟩ :: _ => true
  | _ => false

/-- Lets workers work, in `steps` steps at most, until none is left or
`pause` holds. -/
def workUntil? (pause : World → Bool) : Nat → World → Option World
  | 0, _ => none
  | steps + 1, w =>
    if w.workers.isEmpty || pause w then some w
    else (w.advance? steps).bind (workUntil? pause steps)

/-- Lets workers work until none is left. -/
def work? (steps : Nat) (s : Scheduler) : Option Scheduler :=
  (workUntil? (fun _ => false) steps s.world).map fun world => { s with world }

/-- Requests a parse and lets it be made. -/
def request? (steps : Nat) (s : Scheduler) (id : String) : Option (Scheduler × Requested) := do
  let (world, requested) := s.world.request id
  let s ← { s with world }.work? steps
  some (s, requested)

/-- What happens while the first pass of a request waits for its text. -/
structure Meanwhile where
  /-- So many more requests of the same source are made. -/
  requests : Nat
  /-- Then the source gets another text, or none. -/
  change : Option (Option String)
deriving Repr, Inhabited

/-- The outcome of a request during which something happened. -/
structure Interrupted where
  requested : List Requested
  /-- A worker held the source after the further requests. -/
  running : Bool
deriving Repr, Inhabited

/-- Requests a parse, lets its first pass ask for the text, lets happen what
happens then, and lets the parse be made. -/
def requestDuring? (steps : Nat) (s : Scheduler) (id : String) (m : Meanwhile) :
    Option (Scheduler × Interrupted) := do
  let (world, first) := s.world.request id
  let world ← workUntil? isCalled steps world
  let (world, more) := world.requestAll id m.requests
  let running := world.flights.isRunning id
  let provider := m.change.elim world.provider (world.provider.setText id)
  let s ← { s with world := { world with provider } }.work? steps
  some (s, { requested := first :: more, running })

/-- The end of timers of waiting requests for a source, with their numbers, in
order. -/
def expire? (steps : Nat) (id : String) : List Nat → Scheduler → Option Scheduler
  | [], s => some s
  | number :: rest, s =>
    if s.waiting.isLast id number then do
      let (s, _) ← s.request? steps id
      expire? steps id rest s
    else expire? steps id rest s

/-- Makes several waiting requests at once and lets their timers end. -/
def debounce? (steps : Nat) (s : Scheduler) (id : String) (times : Nat) : Option Scheduler :=
  let (waiting, numbers) := s.waiting.startAll id times
  expire? steps id numbers { s with waiting }

/-- Forgets a source. -/
def remove (s : Scheduler) (id : String) : Scheduler :=
  { world := {
      s.world with
      results := s.world.results.filter (·.1 != id)
      flights := s.world.flights.forget id }
    waiting := s.waiting.forget id }

/-- The innermost item that owns a line, by the last parse of a source. -/
def scopeOfLine? (s : Scheduler) (id : String) (line : Nat) : Option Item :=
  (s.world.result? id).bind (·.file.scopeOfLine? line)

/-- Takes what listeners have been told since it was last taken. -/
def takeEvents (s : Scheduler) : List Event × Scheduler :=
  (s.world.events, { s with world := { s.world with events := [] } })

end Scheduler

end AblOutline
