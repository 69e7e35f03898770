/-
The flags by which requests and workers of one source agree. A flight stands
for a source: `running` says that a worker holds it, `rerun` asks that worker
for one more pass. A request that finds the flight running leaves its mark; a
worker that lets go looks for a mark once more and takes the flight back if it
finds one, unless the flight was dropped or another worker holds it.
-/
namespace AblOutline.Scheduler

/-- The flags of a source. -/
structure Flight where
  running : Bool := false
  rerun : Bool := false
deriving DecidableEq, Repr, Inhabited

/-- All flights ever made, by number, and the one that counts for each
source. -/
structure Flights where
  made : Array Flight := #[]
  table : List (String × Nat) := []
deriving DecidableEq, Repr, Inhabited

namespace Flights

/-- The flight of that number. -/
def get (f : Flights) (number : Nat) : Flight := f.made[number]?.getD {}

/-- Changes the flight of that number. -/
def change (f : Flights) (number : Nat) (g : Flight → Flight) : Flights :=
  { f with made := f.made.modify number g }

/-- The flight that counts for a source. -/
def number? (f : Flights) (id : String) : Option Nat := f.table.lookup id

/-- A worker holds the flight that counts for a source. -/
def isRunning (f : Flights) (id : String) : Bool := (f.number? id).any fun n => (f.get n).running

-- =============================================================== requests

/-- The flight of a source, made if there is none. -/
def enter (f : Flights) (id : String) : Flights × Nat :=
  match f.number? id with
  | some number => (f, number)
  | none =>
    ({ made := f.made.push {}, table := (id, f.made.size) :: f.table }, f.made.size)

/-- Takes a flight that no worker holds; nothing when one does. -/
def claim? (f : Flights) (number : Nat) : Option Flights :=
  if (f.get number).running then none
  else some (f.change number fun x => { x with running := true })

/-- Asks for one more pass. -/
def mark (f : Flights) (number : Nat) : Flights :=
  f.change number fun x => { x with rerun := true }

-- ================================================================ workers

/-- Takes the mark away, before a pass. -/
def clear (f : Flights) (number : Nat) : Flights :=
  f.change number fun x => { x with rerun := false }

/-- One more pass is asked for. -/
def isMarked (f : Flights) (number : Nat) : Bool := (f.get number).rerun

/-- Lets go of a flight. -/
def release (f : Flights) (number : Nat) : Flights :=
  f.change number fun x => { x with running := false }

/-- Takes a flight back that was let go, where it still counts for its
source. -/
def reclaim? (f : Flights) (id : String) (number : Nat) : Option Flights :=
  if f.number? id = some number then f.claim? number else none

-- ================================================================ removal

/-- Drops the flight of a source, unless a worker holds it. -/
def forget (f : Flights) (id : String) : Flights :=
  if f.isRunning id then f else { f with table := f.table.filter (·.1 != id) }

end Flights

end AblOutline.Scheduler
