/-
The timers of requests that wait. A request for a source gets its number and
starts a timer; the timer may fail to start, and the number is given all the
same. Timers end in any order, and between that sources are removed and workers
and other calls go on. A timer that ends makes its request if its number is
still the last one of its source, and drops it otherwise.
-/
import AblOutline.Scheduler.Run
namespace AblOutline.Scheduler

/-- Where a timer stands. -/
inductive TimerStage where
  | running
  /-- It ended, and a parse was requested. -/
  | requested
  /-- It ended, and nothing was requested. -/
  | dropped
deriving DecidableEq, Repr, Inhabited

/-- The timer of a request that waits. -/
structure Timer where
  id : String
  /-- The number of the request. -/
  number : Nat
  stage : TimerStage := .running
deriving DecidableEq, Repr, Inhabited

/-- A scheduler, and all timers ever started, in order. -/
structure Timers where
  scheduler : Scheduler
  list : List Timer := []

namespace Timers

/-- What happens next. -/
inductive Act where
  /-- A parse of a source is to be requested later; the timer may fail to
  start. -/
  | debounce (id : String) (starts : Bool)
  /-- A source is removed. -/
  | remove (id : String)
  /-- The timer at that place ends. -/
  | expire (place : Nat)
  /-- Workers and other calls change what timers do not look at. -/
  | proceed (world : World)

/-- The end of a timer: the scheduler after it, and what became of the
request. -/
def endTimer (s : Scheduler) (x : Timer) : Scheduler × TimerStage :=
  if s.waiting.isLast x.id x.number then
    ({ s with world := (s.world.request x.id).1 }, .requested)
  else (s, .dropped)

/-- Something happens. -/
def act? (t : Timers) : Act → Option Timers
  | .debounce id starts =>
    let (waiting, number) := t.scheduler.waiting.start id
    some {
      scheduler := { t.scheduler with waiting }
      list := if starts then t.list ++ [{ id, number }] else t.list }
  | .remove id => some { t with scheduler := t.scheduler.remove id }
  | .expire place => do
    let x ← t.list[place]?
    if x.stage = .running then
      let (scheduler, stage) := endTimer t.scheduler x
      some { scheduler, list := t.list.set place { x with stage } }
    else none
  | .proceed world => some { t with scheduler := { t.scheduler with world } }

/-- One thing after the other happens. -/
def acts? (t : Timers) (as : List Act) : Option Timers := as.foldlM act? t

/-- No timer was started yet. -/
def start (environment : Environment) (provider : Provider) (listeners : Nat) : Timers where
  scheduler := { world := { environment, provider, listeners } }

end Timers

end AblOutline.Scheduler
