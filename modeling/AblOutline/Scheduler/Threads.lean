/-
The threads of a scheduler, one operation at a time. Besides the requests and
workers of `Traffic`, sources are removed, a worker takes its flight back under
the lock, and a thread may fail to start. A removal goes from stage to stage:

    results      forgets the last parse of the source
    waiting      forgets the requests for the source that wait
    entering     takes the lock and looks up the flight of the source; none?
                 then leaving
    testing      a worker holds the flight?  then leaving, else dropping
    dropping     drops the flight of the source
    leaving      gives the lock back
    removed

A worker that is to take its flight back takes the lock and looks whether that
is the flight of its source still; then it tries to take the flight, and gives
the lock back. A worker that requests the current source when it is done becomes
the caller of that request. No thread is ever left out, so that each is known by
its number.
-/
import AblOutline.Scheduler.Run
import AblOutline.Scheduler.Traffic
namespace AblOutline.Scheduler

/-- Where a removal stands: what it will do next. -/
inductive RemovalStage where
  | results
  | waiting
  | entering
  | testing (flight : Nat)
  | dropping (flight : Nat)
  | leaving
  | removed
deriving DecidableEq, Repr, Inhabited

/-- What a thread does. -/
inductive Task where
  | call (stage : CallStage)
  | work (flight : Nat) (stage : Stage)
  /-- A worker has the lock and found its flight to be that of its source. -/
  | retaking (flight : Nat)
  /-- A worker is to give the lock back, and has its flight again or not. -/
  | retaken (flight : Nat) (again : Bool)
  | removal (stage : RemovalStage)
  /-- A worker is gone. -/
  | ended
deriving DecidableEq, Repr, Inhabited

/-- A thread, and the source that it is about. -/
structure Thread where
  id : String
  task : Task
deriving DecidableEq, Repr, Inhabited

namespace Thread

/-- A thread is in the midst of a pass over a source: it starts to tell the
listeners, asks for the text, or parses it. -/
def parses (x : Thread) (id : String) : Bool :=
  x.id == id &&
    match x.task with
    | .work _ .starting | .work _ .calling | .work _ (.called _) => true
    | _ => false

/-- A thread takes the lock next. -/
def locks (x : Thread) : Bool :=
  match x.task with
  | .call .entering | .work _ .reclaiming | .removal .entering => true
  | _ => false

/-- A thread gives the lock back next. -/
def unlocks (x : Thread) : Bool :=
  match x.task with
  | .call (.leaving _ _) | .retaken _ _ | .removal .leaving => true
  | _ => false

end Thread

/-- Drops the flight of a source. -/
def Flights.drop (f : Flights) (id : String) : Flights :=
  { f with table := f.table.filter (·.1 != id) }

/-- One operation of a removal. -/
def RemovalStage.move (s : Scheduler) (id : String) : RemovalStage → Scheduler × RemovalStage
  | .results =>
    let results := s.world.results.filter (·.1 != id)
    ({ s with world := { s.world with results } }, .waiting)
  | .waiting => ({ s with waiting := s.waiting.forget id }, .entering)
  | .entering => (s, ((s.world.flights.number? id).map .testing).getD .leaving)
  | .testing flight =>
    (s, if (s.world.flights.get flight).running then .leaving else .dropping flight)
  | .dropping _ =>
    ({ s with world := { s.world with flights := s.world.flights.drop id } }, .leaving)
  | .leaving => (s, .removed)
  | .removed => (s, .removed)

/-- One operation of a thread: the scheduler after it, the thread, and a thread
that it started. Parsing takes `steps` steps at most; whether a thread can be
started is up to the system. -/
def Thread.move? (steps : Nat) (starts : Bool) (s : Scheduler) (x : Thread) :
    Option (Scheduler × Thread × List Thread) :=
  let go (s : Scheduler) (task : Task) : Option (Scheduler × Thread × List Thread) :=
    some (s, { x with task }, [])
  let keep (flights : Flights) : Scheduler := { s with world := { s.world with flights } }
  match x.task with
  | .call (.spawning flight) =>
    if starts then
      some (s, { x with task := .call (.returned .started) }, [⟨x.id, .work flight .clearing⟩])
    else go (keep (s.world.flights.release flight)) (.call (.returned .coalesced))
  | .call (.returned _) => none
  | .call stage =>
    let (world, c) := Call.move s.world { id := x.id, stage }
    go { s with world } (.call c.stage)
  | .work flight .reclaiming =>
    go s (if s.world.flights.number? x.id = some flight then .retaking flight
      else .retaken flight false)
  | .retaking flight =>
    match s.world.flights.claim? flight with
    | some flights => go (keep flights) (.retaken flight true)
    | none => go s (.retaken flight false)
  | .retaken flight again => go s (.work flight (if again then .clearing else .following))
  | .work _ .following =>
    match s.world.stale? x.id with
    | some current => some (s, ⟨current, .call .entering⟩, [])
    | none => go s .ended
  | .work flight stage =>
    (World.move? steps s.world ⟨x.id, flight, stage⟩).bind fun (world, k) =>
      go { s with world } ((k.map fun k => .work flight k.stage).getD .ended)
  | .removal .removed => none
  | .removal stage =>
    let (s, stage) := stage.move s x.id
    go s (.removal stage)
  | .ended => none

/-- A scheduler, its threads, and the number of the one that has the lock. -/
structure Threads where
  scheduler : Scheduler
  list : List Thread := []
  holder : Option Nat := none

/-- What happens next. -/
inductive Act where
  /-- A parse of a source is requested. -/
  | request (id : String)
  /-- A source is removed. -/
  | remove (id : String)
  /-- That thread does its next operation; it may fail to start another. -/
  | run (number : Nat) (starts : Bool)
  /-- Sources change. -/
  | provide (provider : Provider)
deriving Repr

namespace Threads

/-- The lock after an operation of that thread; nothing where it has to wait for
the lock. -/
def lock? (t : Threads) (number : Nat) (x : Thread) : Option (Option Nat) :=
  if x.locks then if t.holder.isSome then none else some (some number)
  else if x.unlocks then some none
  else some t.holder

/-- A thread does its next operation. -/
def run? (steps : Nat) (t : Threads) (number : Nat) (starts : Bool) : Option Threads := do
  let x ← t.list[number]?
  let holder ← t.lock? number x
  let (scheduler, x, started) ← x.move? steps starts t.scheduler
  some { scheduler, list := t.list.set number x ++ started, holder }

/-- Something happens. -/
def act? (steps : Nat) (t : Threads) : Act → Option Threads
  | .request id => some { t with list := t.list ++ [⟨id, .call .entering⟩] }
  | .remove id => some { t with list := t.list ++ [⟨id, .removal .results⟩] }
  | .run number starts => t.run? steps number starts
  | .provide provider =>
    let world := { t.scheduler.world with provider }
    some { t with scheduler := { t.scheduler with world } }

/-- One thing after the other happens. -/
def acts? (steps : Nat) (t : Threads) (as : List Act) : Option Threads :=
  as.foldlM (act? steps) t

/-- Nothing has been requested. -/
def start (environment : Environment) (provider : Provider) (listeners : Nat) : Threads where
  scheduler := { world := { environment, provider, listeners } }

end Threads

end AblOutline.Scheduler
