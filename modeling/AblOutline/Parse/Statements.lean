/-
The end of a statement. Its first word decides what it declares or opens:

    PROCEDURE p:            a procedure and its scope
    FUNCTION f RETURNS ...  a prototype, or a function and its scope
    METHOD ... m():         a method and its scope
    ON ev OF w DO:          a trigger and its scope
    RUN target ...          a call of a procedure
    DEFINE ... / VAR ...    variables, tables, buffers, events
    label:                  a label for the next block
    DO: FOR ...: CASE ...:  a block
    END [kind].             closes the nearest block or routine

What a statement says is read from it first and then put down in the state, so
a statement that cannot be read changes nothing.
-/
import AblOutline.Nesting.Closing
import AblOutline.Parse.Directives
import AblOutline.Parse.Words
import AblOutline.Statement.Definition
import AblOutline.Statement.Routine
namespace AblOutline

namespace Parse

namespace State

/-- The work was done. -/
def done (s : State) : Outcome := { state := s }

/-- Nothing was done because of a fault. -/
def refused (s : State) (fault : AnalysisFault) : Outcome := { state := s, fault := some fault }

/-- Works with what was read, if it could be read. -/
def reading {α : Type} (s : State) (read : Except AnalysisFault α) (work : α → Outcome) : Outcome :=
  match read with
  | .ok a => work a
  | .error fault => s.refused fault

-- ============================================================= routines

/-- Opens the scope of a routine, which is a fault inside another one. -/
def openRoutine (s : State) (item : ItemId) (kind : RoutineKind) (keyword : String)
    (opener : Token) : State :=
  let s := if 0 < s.nesting.openRoutines then s.addError .nestedRoutine opener else s
  s.openScope (.routine item kind keyword opener) opener

/-- The end of a `PROCEDURE` statement. -/
def endProcedure (s : State) (statement : Statement) : Outcome :=
  s.reading statement.procedureHead fun head =>
    let id := s.nextItem
    let s := s.addItem head.name head.nameToken (.procedure head.procedure)
    (s.openRoutine id .procedure "PROCEDURE" head.opener).done

/-- Remembers what a function name stands for. -/
def setFunction (s : State) (name : String) (entry : FunctionEntry) : State :=
  let functions := (Text.lower name, entry) :: s.analysis.functions
  { s with analysis := { s.analysis with functions } }

/-- The implementation with its prototype. -/
def withPrototype (prototype : ItemId) (i : Item) : Item :=
  match i.content with
  | .implementation f => { i with content := .implementation { f with prototype := some prototype } }
  | _ => i

/-- The prototype with its implementation. -/
def withImplementation (implementation : ItemId) (i : Item) : Item :=
  match i.content with
  | .prototype f =>
    { i with content := .prototype { f with implementation := some implementation } }
  | _ => i

/-- Changes an item, if one is given, and goes on. -/
def changing (s : State) (item : Option ItemId) (f : Item → Item) (next : State → Outcome) :
    Outcome :=
  match item with
  | none => next s
  | some id =>
    match s.changeItem? id f with
    | some s => next s
    | none => s.refused (.danglingItem id)

/-- Puts down a function that has no body here. -/
def addPrototype (s : State) (head : Statement.FunctionHead) : Outcome :=
  let entry := (s.function? head.name).getD {}
  let id := s.nextItem
  let content : Item.Content := .prototype {
    returnType := head.returnType
    parameters := head.parameters
    forward := head.forward
    inHandle := head.inHandle
    implementation := entry.implementation }
  let s := s.addItem head.name head.nameToken content
  s.changing entry.implementation (withPrototype id) fun s =>
    (s.setFunction head.name { entry with prototype := some id }).done

/-- Puts down a function with its body. -/
def addImplementation (s : State) (head : Statement.FunctionHead) : Outcome :=
  let entry := (s.function? head.name).getD {}
  let id := s.nextItem
  let content : Item.Content := .implementation {
    returnType := head.returnType
    parameters := head.parameters
    isPrivate := head.isPrivate
    prototype := entry.prototype }
  let s := s.addItem head.name head.nameToken content
  s.changing entry.prototype (withImplementation id) fun s =>
    let s := s.setFunction head.name { entry with implementation := some id }
    (s.openRoutine id .function "FUNCTION" head.opener).done

/-- The end of a `FUNCTION` statement. -/
def endFunction (s : State) (statement : Statement) (colon : Bool) : Outcome :=
  s.reading statement.functionHead fun head =>
    if head.hasBody colon then s.addImplementation head else s.addPrototype head

/-- The end of a `METHOD`, `CONSTRUCTOR` or `DESTRUCTOR` statement. -/
def endMethod (s : State) (statement : Statement) (colon : Bool) : Outcome :=
  s.reading (statement.methodHead colon) fun head =>
    let id := s.nextItem
    let s := s.addItem head.name head.nameToken (.method head.method)
    if colon then (s.openRoutine id .method (Text.upper head.opener.text) head.opener).done
    else s.done

-- ============================================================== actions

/-- The end of an `ON` statement without an action. -/
def endOn (s : State) (statement : Statement) : Outcome :=
  if statement.namesWidgets then
    s.reading statement.opening fun first => (s.addTrigger statement first).done
  else s.done

/-- The end of a `RUN` statement. -/
def endRun (s : State) (statement : Statement) : Outcome :=
  s.reading statement.runHead fun head =>
    (s.addItem head.run.target head.targetToken (.run head.run)).done

-- ========================================================== definitions

/-- Remembers a table or buffer of the file. -/
def setLocalTable (s : State) (name : String) (temporary : Bool) : State :=
  let localTables := (Text.lower name, temporary) :: s.analysis.localTables
  { s with analysis := { s.analysis with localTables } }

/-- Puts down a buffer, which is temporary where its table is. -/
def addBuffer (s : State) (nameToken : Token) (name table : String) (temporary : Bool) : State :=
  let temporary := temporary || (s.localTable? table).getD false
  (s.setLocalTable name temporary).addItem name nameToken (.buffer table temporary)

/-- Puts down a definition; a table is remembered. -/
def addDefinition (s : State) (nameToken : Token) (name : String) (d : Item.Definition) : State :=
  let s := if d.type = .tempTable ∨ d.type = .workTable then s.setLocalTable name true else s
  s.addItem name nameToken (.definition d)

/-- Opens the block of an accessor that ends a statement with a colon. -/
def openAccessor (s : State) (statement : Statement) (colon : Bool) : State :=
  match if colon then statement.accessor? else none with
  | some opener => s.openScope (.block opener (Text.upper opener.text) none) opener
  | none => s

/-- The end of a `DEFINE` statement. -/
def endDefine (s : State) (statement : Statement) (colon : Bool) : Outcome :=
  s.reading statement.defined fun
    | .nothing => s.done
    | .buffer nameToken name table temporary => (s.addBuffer nameToken name table temporary).done
    | .event nameToken name =>
      ((s.addItem name nameToken .event).openAccessor statement colon).done
    | .definition nameToken name d =>
      ((s.addDefinition nameToken name d).openAccessor statement colon).done

/-- The end of a `VAR` statement. -/
def endVar (s : State) (statement : Statement) : Outcome :=
  s.reading statement.varHead fun v =>
    (v.names.foldl (fun s t => s.addItem t.text t (.definition v.definition)) s).done

-- =============================================================== blocks

/-- The end of a statement with a colon that may be a label: a lone word that
is no keyword. Tells whether it is one. -/
def endLabel (env : Environment) (s : State) (statement : Statement) : State × Bool :=
  match statement.parts with
  | [p] =>
    if p.token.kind = .word ∧ !env.directory.isKeyword p.token.text then
      let id := s.nextItem
      let s := s.addItem p.token.text p.token (.label none)
      ({ s with analysis := { s.analysis with pendingLabel := some id } }, true)
    else (s, false)
  | _ => (s, false)

/-- The trigger with its block. -/
def withBlock (i : Item) : Item :=
  match i.content with
  | .trigger t => { i with content := .trigger { t with hasBlock := true } }
  | _ => i

/-- The label with the first word of its block. -/
def withKeyword (keyword : String) (i : Item) : Item :=
  match i.content with
  | .label _ => { i with content := .label (some keyword) }
  | _ => i

/-- The end of the head of a block: of a trigger, where `DO` begins its
action, or one that may have a label. -/
def endBlockHead (s : State) (statement : Statement) : Outcome :=
  s.reading statement.opening fun opener =>
    let keyword := Text.upper opener.text
    match if keyword = "DO" then statement.trigger else none with
    | some trigger =>
      s.changing (some trigger) withBlock fun s =>
        (s.openScope (.routine trigger .trigger keyword opener) opener).done
    | none =>
      let label := s.analysis.pendingLabel
      let s := { s with analysis := { s.analysis with pendingLabel := none } }
      s.changing label (withKeyword keyword) fun s =>
        (s.openScope (.block opener keyword label) opener).done

/-- The word that `END` may name, and the item whose block ends. -/
def endedBy : Scope → String × Option ItemId
  | .routine item _ keyword _ => (keyword, some item)
  | .block _ keyword label => (keyword, label)
  | _ => ("", none)

/-- The word after `END` names another kind of block than `keyword`. -/
def isMismatched (statement : Statement) (keyword : String) : Bool :=
  match statement.token? 1 with
  | some t =>
    t.kind == .word && !Text.abbreviates t.text keyword (min keyword.utf8ByteSize 3)
  | none => false

/-- The end of an `END` statement. -/
def endBlock (s : State) (statement : Statement) : Outcome :=
  s.reading statement.opening fun stop =>
    match s.nesting.endBlock? with
    | none => (s.addError .unexpectedEnd stop).done
    | some (scope, nesting) =>
      let (keyword, item) := endedBy scope
      let depth := s.nesting.depth
      let line := s.rootLine stop
      let s := { s with nesting }
      let s :=
        if isMismatched statement keyword then s.addErrorAt .mismatchedEnd stop line depth else s
      s.changing item (fun i => { i with endLine := some line }) done

-- =========================================================== statements

/-- What the end of a statement does to the state by its kind; tells whether
it is a label. -/
def endByKind (env : Environment) (s : State) (statement : Statement) (colon : Bool) :
    Outcome × Bool :=
  match statement.kind with
  | .procedure => (s.endProcedure statement, false)
  | .function => (s.endFunction statement colon, false)
  | .method | .constructor | .destructor => (s.endMethod statement colon, false)
  | .on => (s.endOn statement, false)
  | .run => (s.endRun statement, false)
  | .define => (s.endDefine statement colon, false)
  | .var => (s.endVar statement, false)
  | .close => (s.endBlock statement, false)
  | .block => (s.endBlockHead statement, false)
  | .accessor => (if colon then s.endBlockHead statement else s.done, false)
  | .other =>
    if colon then
      let (s, isLabel) := s.endLabel env statement
      (s.done, isLabel)
    else (s.done, false)

/-- The state whose findings belong to that trigger, or to none. -/
def under (s : State) (trigger : Option ItemId) : State :=
  let statement := { s.analysis.statement with trigger }
  { s with analysis := { s.analysis with statement } }

/-- The end of a statement, at the token that ends it. What it says belongs to
the trigger whose action it is; a label waits for the statement after it and
no longer. -/
def endStatement (env : Environment) (s : State) (statement : Statement) (stop : Token) :
    Outcome :=
  let outer := s.analysis.statement.trigger
  let (outcome, isLabel) :=
    (s.under statement.trigger).endByKind env statement (stop.text == ":")
  let s := outcome.state.under outer
  let pendingLabel := if isLabel then s.analysis.pendingLabel else none
  { outcome with state := { s with analysis := { s.analysis with pendingLabel } } }

end State

end Parse

end AblOutline
