/-
Workers that parse sources, one step at a time:

    clearing      takes the mark away
    starting      tells the listeners that a pass starts
    calling       asks for the text of the source
    called        parses the text it got, keeps the result, tells the listeners
    checking      one more pass is asked for?  then clearing, else releasing
    releasing     lets go of the flight
    rechecking    a mark after all?  then reclaiming, else following
    reclaiming    takes the flight back?  then clearing, else following
    following     asks for a parse of the current source, if that is stale

A worker that fails while it is called lets go of its flight and is gone.
-/
import AblOutline.Completion.Candidates
import AblOutline.Outline
import AblOutline.Parse.Run
import AblOutline.Scheduler.Flight
namespace AblOutline.Scheduler

/-- Where sources come from. -/
structure Provider where
  texts : List (String × String) := []
  paths : List (String × String) := []
  /-- The source that the user looks at. -/
  current : Option String := none
  /-- The source whose text cannot be asked for without failing. -/
  failing : Option String := none
deriving Repr, Inhabited

/-- The text of a source; nothing when it is gone. -/
def Provider.text? (p : Provider) (id : String) : Option String := p.texts.lookup id

/-- Gives a source another text, or none. -/
def Provider.setText (p : Provider) (id : String) (text : Option String) : Provider :=
  let others := p.texts.filter (·.1 != id)
  { p with texts := text.elim others fun text => (id, text) :: others }

/-- The last parse of a source. -/
structure ParsedSource where
  id : String
  /-- The text that was parsed. -/
  text : String
  file : ParsedFile
  declared : List Completion
  outline : List Outline
deriving Repr, Inhabited

/-- What a listener is told. -/
inductive News where
  | start
  | completions (count : Nat)
  | outline (trees : Nat)
  | items (items errors : Nat)
  | stop
deriving DecidableEq, Repr, Inhabited

/-- News of a source for a listener. -/
structure Event where
  listener : Nat
  news : News
  id : String
deriving DecidableEq, Repr, Inhabited

/-- Where a worker stands: what it will do next. -/
inductive Stage where
  | clearing
  | starting
  | calling
  /-- It has asked for the text, which was this. -/
  | called (text : Option String)
  | checking
  | releasing
  | rechecking
  | reclaiming
  | following
deriving DecidableEq, Repr, Inhabited

/-- A worker of a source, with the flight it holds. -/
structure Worker where
  id : String
  flight : Nat
  stage : Stage
deriving DecidableEq, Repr, Inhabited

/-- What a request led to. -/
inductive Requested where
  /-- A worker was started. -/
  | started
  /-- The worker that is there makes one more pass. -/
  | coalesced
deriving DecidableEq, Repr, Inhabited

/-- The name of the outcome in records. -/
def Requested.name : Requested → String
  | .started => "Started"
  | .coalesced => "Coalesced"

/-- All that workers share. -/
structure World where
  environment : Environment
  provider : Provider
  /-- The number of listeners. -/
  listeners : Nat := 1
  cache : TokenCache := {}
  flights : Flights := {}
  workers : List Worker := []
  results : List (String × ParsedSource) := []
  /-- What listeners have been told, in order. -/
  events : List Event := []

namespace World

-- =============================================================== requests

/-- Requests a parse of a source. -/
def request (w : World) (id : String) : World × Requested :=
  let (flights, number) := w.flights.enter id
  match flights.claim? number with
  | some flights =>
    ({ w with flights, workers := w.workers ++ [⟨id, number, .clearing⟩] }, .started)
  | none => ({ w with flights := flights.mark number }, .coalesced)

/-- Requests a parse of a source several times. -/
def requestAll (w : World) (id : String) : Nat → World × List Requested
  | 0 => (w, [])
  | times + 1 =>
    let (w, first) := w.request id
    let (w, rest) := w.requestAll id times
    (w, first :: rest)

-- ================================================================ results

/-- The last parse of a source. -/
def result? (w : World) (id : String) : Option ParsedSource := w.results.lookup id

/-- Keeps a parse as the last one of its source. -/
def keep (w : World) (r : ParsedSource) : World :=
  { w with results := (r.id, r) :: w.results.filter (·.1 != r.id) }

/-- The last parse of a source is that of its text. -/
def isFresh (w : World) (id : String) : Bool :=
  match w.result? id with
  | some r => w.provider.text? id == some r.text
  | none => false

/-- Tells all listeners the same. -/
def tell (w : World) (id : String) (news : News) : World :=
  { w with events := w.events ++ (List.range w.listeners).map fun listener => ⟨listener, news, id⟩ }

/-- Parses a text of a source in `steps` steps at most, keeps the parse and
tells all listeners of it. -/
def parseText? (steps : Nat) (w : World) (id text : String) : Option World := do
  let r ← parse? steps w.environment w.cache text (w.provider.paths.lookup id)
  let file := r.file
  let parsed : ParsedSource :=
    { id, text, file, declared := file.declared, outline := file.outline }
  let w := World.keep { w with cache := r.cache } parsed
  some (((w.tell id (.completions parsed.declared.length)).tell id
    (.outline parsed.outline.length)).tell id (.items file.items.size file.errors.length))

-- ================================================================== steps

/-- Requests a parse of the current source, where that is another one and its
last parse is not that of its text. -/
def followCurrent (w : World) (id : String) : World :=
  match w.provider.current with
  | some current => if current ≠ id ∧ !w.isFresh current then (w.request current).1 else w
  | none => w

/-- One step of a worker: the world after it, and the worker unless it is
gone. Parsing takes `steps` steps at most. -/
def move? (steps : Nat) (w : World) (k : Worker) : Option (World × Option Worker) :=
  let go (w : World) (stage : Stage) : Option (World × Option Worker) :=
    some (w, some { k with stage })
  match k.stage with
  | .clearing => go { w with flights := w.flights.clear k.flight } .starting
  | .starting => go (w.tell k.id .start) .calling
  | .calling => go w (.called (w.provider.text? k.id))
  | .called text =>
    if w.provider.failing = some k.id then
      some ({ w with flights := w.flights.release k.flight }, none)
    else
      match text with
      | none => go (w.tell k.id .stop) .checking
      | some text => (w.parseText? steps k.id text).bind fun w => go (w.tell k.id .stop) .checking
  | .checking => go w (if w.flights.isMarked k.flight then .clearing else .releasing)
  | .releasing => go { w with flights := w.flights.release k.flight } .rechecking
  | .rechecking => go w (if w.flights.isMarked k.flight then .reclaiming else .following)
  | .reclaiming =>
    match w.flights.reclaim? k.id k.flight with
    | some flights => go { w with flights } .clearing
    | none => go w .following
  | .following => some (w.followCurrent k.id, none)

/-- One step of the oldest worker, if there is one. -/
def advance? (steps : Nat) (w : World) : Option World :=
  match w.workers with
  | [] => some w
  | k :: rest =>
    (move? steps { w with workers := rest } k).map fun (w, k) =>
      { w with workers := k.toList ++ w.workers }

end World

end AblOutline.Scheduler
