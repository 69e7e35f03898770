/-
Threads whose calls fail. A worker calls the provider (for a text, for a path, for
the current source) and the listeners, and any of these calls may fail. Then the
operation that the worker is at breaks off, the worker does no further one, and
when it is unwound its guard lets go of its flight and the worker is gone. Other
threads go on meanwhile, also between the failure and the guard.

The guard stays with a worker to its end: it lets go of the flight also where the
worker had let go of it before and asks what the current source is.

Which calls fail is up to what happens, and not to the provider, so no source of
the provider is one that fails.
-/
import AblOutline.Scheduler.Threads
namespace AblOutline.Scheduler

/-- A call that fails. -/
inductive Failure where
  /-- The provider was asked. -/
  | asking
  /-- A listener was told, after so many others were in this operation. -/
  | telling (told : Nat)
deriving DecidableEq, Repr, Inhabited

/-- In the next operation the provider is asked: for the text of the source, for
its path, or for the current source and its text. -/
def Stage.asks : Stage → Bool
  | .calling | .called _ | .following => true
  | _ => false

/-- In the next operation listeners are told. -/
def Stage.tells : Stage → Bool
  | .starting | .called _ => true
  | _ => false

/-- What there is when the next operation of a worker breaks off. The provider is
asked before anything is done; a listener is told when all is done, but those
after it are not told. -/
def World.breakOff? (steps : Nat) (w : World) (k : Worker) : Failure → Option World
  | .asking => if k.stage.asks then some w else none
  | .telling told =>
    if k.stage.tells then do
      let (done, _) ← World.move? steps w k
      if w.events.length + told < done.events.length then
        some { done with events := done.events.take (w.events.length + told) }
      else none
    else none

/-- What happens, but for the source that fails. -/
def Act.unfailing : Act → Act
  | .provide provider => .provide { provider with failing := none }
  | a => a

/-- The thread that does something. -/
def Act.thread? : Act → Option Nat
  | .run number _ => some number
  | _ => none

/-- Threads, and the numbers of those that unwind. -/
structure Unwinding where
  threads : Threads
  unwinding : List Nat := []

namespace Unwinding

/-- What happens next. -/
inductive Act where
  /-- What happens without a failure. -/
  | go (a : Scheduler.Act)
  /-- A call of that worker fails. -/
  | fail (number : Nat) (failure : Failure)
  /-- The guard of that worker lets go of its flight. -/
  | drop (number : Nat)
deriving Repr

/-- The scheduler in another world. -/
def inWorld (s : Scheduler) (world : World) : Scheduler := { s with world }

/-- The flight of a thread that is a worker, and its stage. -/
def work? (u : Unwinding) (number : Nat) : Option (String × Nat × Stage) :=
  match u.threads.list[number]? with
  | some ⟨id, .work flight stage⟩ => some (id, flight, stage)
  | _ => none

/-- Something happens. A worker that unwinds does nothing else. -/
def act? (steps : Nat) (u : Unwinding) : Act → Option Unwinding
  | .go a =>
    if a.thread?.any u.unwinding.contains then none
    else (u.threads.act? steps a.unfailing).map fun threads => { u with threads }
  | .fail number failure => do
    let (id, flight, stage) ← u.work? number
    let s := u.threads.scheduler
    let world ← s.world.breakOff? steps ⟨id, flight, stage⟩ failure
    if u.unwinding.contains number then none
    else some {
      threads := { u.threads with scheduler := inWorld s world }
      unwinding := number :: u.unwinding }
  | .drop number => do
    let (id, flight, _) ← u.work? number
    let s := u.threads.scheduler
    let flights := s.world.flights.release flight
    if u.unwinding.contains number then
      some {
        threads := { u.threads with
          scheduler := inWorld s { s.world with flights }
          list := u.threads.list.set number ⟨id, .ended⟩ }
        unwinding := u.unwinding.filter (· != number) }
    else none

/-- One thing after the other happens. -/
def acts? (steps : Nat) (u : Unwinding) (as : List Act) : Option Unwinding :=
  as.foldlM (act? steps) u

/-- Nothing has been requested. -/
def start (environment : Environment) (provider : Provider) (listeners : Nat) : Unwinding where
  threads := .start environment { provider with failing := none } listeners

end Unwinding

end AblOutline.Scheduler
