/-
Requests and workers that interleave. What they share is used by one operation
at a time; between two operations of a request or worker, others may do any
number of theirs. A request is a call that goes from stage to stage, as a
worker does:

    entering     takes the lock and looks up the flight of its source
    claiming     takes the flight, which no worker holds?  then leaving, else
                 marking
    marking      leaves its mark on the flight, then leaving
    leaving      gives the lock back; has it the flight?  then spawning, else
                 returned
    spawning     starts a worker, then returned
    returned

Workers need no lock, but to take a flight back.
-/
import AblOutline.Scheduler.Worker
namespace AblOutline.Scheduler

/-- Where a call stands: what it will do next. -/
inductive CallStage where
  | entering
  | claiming (flight : Nat)
  | marking (flight : Nat)
  | leaving (flight : Nat) (claimed : Bool)
  | spawning (flight : Nat)
  | returned (outcome : Requested)
deriving DecidableEq, Repr, Inhabited

/-- A call that requests a parse of a source. -/
structure Call where
  id : String
  stage : CallStage := .entering
  /-- The text of the source was asked for after the call tried to take the
  flight. -/
  served : Bool := false
  /-- When the call left its mark, the flight had been let go, and no worker
  was to look at it any more. -/
  late : Bool := false
deriving DecidableEq, Repr, Inhabited

/-- A worker that let go of the flight may take it back. -/
def Stage.mayReturn : Stage → Bool
  | rechecking | reclaiming => true
  | _ => false

namespace World

/-- Nobody will look for a mark on that flight of a source. -/
def isLeft (w : World) (id : String) (flight : Nat) : Bool :=
  !(w.flights.get flight).running && !w.workers.any fun k => k.id == id && k.stage.mayReturn

/-- The current source, where a worker of another one is to request a parse of
it. -/
def stale? (w : World) (id : String) : Option String :=
  w.provider.current.filter fun current => current ≠ id ∧ !w.isFresh current

end World

/-- One operation of a call. -/
def Call.move (w : World) (c : Call) : World × Call :=
  match c.stage with
  | .entering =>
    let (flights, flight) := w.flights.enter c.id
    ({ w with flights }, { c with stage := .claiming flight })
  | .claiming flight =>
    match w.flights.claim? flight with
    | some flights => ({ w with flights }, { c with stage := .leaving flight true, served := false })
    | none => (w, { c with stage := .marking flight, served := false })
  | .marking flight =>
    ({ w with flights := w.flights.mark flight },
      { c with stage := .leaving flight false, late := w.isLeft c.id flight })
  | .leaving flight claimed =>
    (w, { c with stage := if claimed then .spawning flight else .returned .coalesced })
  | .spawning flight =>
    ({ w with workers := w.workers ++ [⟨c.id, flight, .clearing⟩] },
      { c with stage := .returned .started })
  | .returned _ => (w, c)

/-- Calls and workers, and who has the lock. -/
structure Traffic where
  world : World
  calls : List Call := []
  /-- The call that has the lock. -/
  holder : Option Nat := none

/-- What happens next. -/
inductive Move where
  /-- A parse of a source is requested. -/
  | request (id : String)
  /-- That call does its next operation. -/
  | call (number : Nat)
  /-- That worker does its next operation. -/
  | work (number : Nat)
  /-- Sources change. -/
  | provide (provider : Provider)

namespace Traffic

/-- The lock after an operation of that call; nothing where it has to wait for
the lock, or has returned. -/
def lock? (t : Traffic) (number : Nat) : CallStage → Option (Option Nat)
  | .entering => if t.holder.isSome then none else some (some number)
  | .leaving _ _ => some none
  | .returned _ => none
  | _ => some t.holder

/-- A call does its next operation. -/
def call? (t : Traffic) (number : Nat) : Option Traffic := do
  let c ← t.calls[number]?
  let holder ← t.lock? number c.stage
  let (world, c) := c.move t.world
  some { world, calls := t.calls.set number c, holder }

/-- The calls after an operation of a worker: it serves those for its source
when it asks for the text, and makes one of its own when it is done. -/
def callsAfter (t : Traffic) (k : Worker) : List Call :=
  match k.stage with
  | .calling => t.calls.map fun c => if c.id = k.id then { c with served := true } else c
  | .following => t.calls ++ (t.world.stale? k.id).toList.map fun id => { id }
  | _ => t.calls

/-- A worker does its next operation. -/
def work? (steps : Nat) (t : Traffic) (number : Nat) : Option Traffic := do
  let k ← t.world.workers[number]?
  let gone : World := { t.world with workers := t.world.workers.eraseIdx number }
  let calls := t.callsAfter k
  match k.stage with
  | .following => some { t with world := gone, calls }
  | stage =>
    if stage = .reclaiming ∧ t.holder.isSome then none
    else
      let (world, after) ← World.move? steps t.world k
      match after with
      | none => some { t with world := { world with workers := gone.workers }, calls }
      | some k =>
        some { t with world := { world with workers := t.world.workers.set number k }, calls }

/-- Something happens. -/
def move? (steps : Nat) (t : Traffic) : Move → Option Traffic
  | .request id => some { t with calls := t.calls ++ [{ id }] }
  | .call number => t.call? number
  | .work number => t.work? steps number
  | .provide provider => some { t with world := { t.world with provider } }

/-- One thing after the other happens. -/
def moves? (steps : Nat) (t : Traffic) (ms : List Move) : Option Traffic :=
  ms.foldlM (move? steps) t

/-- Nothing has been requested. -/
def start (environment : Environment) (provider : Provider) (listeners : Nat) : Traffic where
  world := { environment, provider, listeners }

end Traffic

end AblOutline.Scheduler
