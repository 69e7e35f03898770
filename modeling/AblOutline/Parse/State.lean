/-
The state of a parse, in four parts: the source as far as it is read, the open
scopes, the findings, and the statement being read with what the parse has
learned of names. A parse reads tokens; each token changes the state.
-/
import AblOutline.Condition.Evaluation
import AblOutline.Directory
import AblOutline.ParsedFile
import AblOutline.Preprocess.Definitions
import AblOutline.Source.Cache
import AblOutline.Source.Resolver
import AblOutline.Statement.Fault
import AblOutline.Token.Cursor
namespace AblOutline

/-- What a user may set for a parse. -/
structure Options where
  /-- Report every word that the directory does not know, once each. -/
  matchKnownWords : Bool := false
  /-- Include directives nested deeper than this are left as they are. -/
  maxIncludeDepth : Nat := 32
  /-- This many values in a row may come to stand at one place; a reference
  that is there then is left as it is. -/
  maxExpansionDepth : Nat := 64
  /-- Give the expanded tokens with the result. -/
  keepExpandedText : Bool := false
  platform : Platform := {}
deriving DecidableEq, Repr, Inhabited

/-- What a parse is given besides a text. -/
structure Environment where
  options : Options := {}
  directory : Directory := .standard
  resolver : Resolver := .none

namespace Parse

-- ================================================================ parts

/-- The source as far as it is read, with what it defines. -/
structure Source where
  cursor : Cursor
  chain : IncludeChain
  definitions : Preprocess.Definitions := {}
  /-- The number of tokens to pass without a look at them. -/
  skip : Nat := 0
  /-- The number of tokens right ahead of the cursor that are expanded
  already. -/
  expanded : Nat := 0
  /-- The value of the next reference to the sequence. -/
  sequence : Nat := 0
  cache : TokenCache
  /-- The questions put to the resolver, the last one first. -/
  asked : List Query := []
deriving Repr, Inhabited

/-- What has been found. -/
structure Findings where
  items : Array Item := #[]
  errors : List StructureError := []
  /-- What holds at the end of the lines that have ended. -/
  lines : Array (Option LineState) := #[]
deriving Repr, Inhabited

/-- The items that a function name stands for. -/
structure FunctionEntry where
  prototype : Option ItemId := none
  implementation : Option ItemId := none
deriving DecidableEq, Repr, Inhabited

/-- The statement being read and the names learned. -/
structure Analysis where
  statement : Statement := {}
  /-- The next word begins a statement within the statement. -/
  restart : Bool := false
  /-- Something was passed over since the last token of a statement. -/
  spaced : Bool := false
  /-- A label whose block has not come yet. -/
  pendingLabel : Option ItemId := none
  /-- Functions by name, in small letters; of two entries the first counts. -/
  functions : List (String × FunctionEntry) := []
  /-- Tables and buffers that the file defines, by name in small letters, and
  whether they are temporary; of two entries the first counts. -/
  localTables : List (String × Bool) := []
  /-- Unknown words already reported, in small letters. -/
  seenWords : List String := []
  /-- Tables already reported, by scope and name in small letters. -/
  tableUses : List (Option ItemId × String) := []
deriving Repr, Inhabited

/-- The state of a parse. -/
structure State where
  source : Source
  nesting : Nesting := {}
  findings : Findings := {}
  analysis : Analysis := {}
deriving Repr, Inhabited

namespace State

-- ============================================================== looking

/-- The line of the file being read that a token counts for. -/
def rootLine (s : State) (t : Token) : Nat := s.source.chain.rootLine t

/-- Some open `&IF` is on a branch that is not taken. -/
def inFalseBranch (s : State) : Bool := s.nesting.inFalseBranch

/-- The item that what is found now belongs to. -/
def scopeItem? (s : State) : Option ItemId :=
  s.analysis.statement.trigger.or s.nesting.currentItem?

/-- What is known of the function of that name. -/
def function? (s : State) (name : String) : Option FunctionEntry :=
  s.analysis.functions.lookup (Text.lower name)

/-- The file defines a table or buffer of that name: whether it is
temporary. -/
def localTable? (s : State) (name : String) : Option Bool :=
  s.analysis.localTables.lookup (Text.lower name)

-- ================================================================ items

/-- The children of a parent, with one more. -/
def withChild (id : ItemId) (i : Item) : Item := { i with children := i.children ++ [id] }

/-- Adds an item under `scope`. -/
def addItemIn (s : State) (scope : Option ItemId) (name : String) (t : Token)
    (content : Item.Content) : State :=
  let id := s.findings.items.size
  let item : Item := { id, name, token := t, rootLine := s.rootLine t, scope, content }
  let items := s.findings.items.push item
  let items := scope.elim items fun parent => items.modify parent (withChild id)
  { s with findings := { s.findings with items } }

/-- Adds an item under the item that what is found now belongs to. -/
def addItem (s : State) (name : String) (t : Token) (content : Item.Content) : State :=
  s.addItemIn s.scopeItem? name t content

/-- The number that the next item gets. -/
def nextItem (s : State) : ItemId := s.findings.items.size

/-- Changes an item; nothing when there is no such item. -/
def changeItem? (s : State) (id : ItemId) (f : Item → Item) : Option State :=
  if id < s.findings.items.size then
    some { s with findings := { s.findings with items := s.findings.items.modify id f } }
  else none

/-- Says on which line the block of an item ends. -/
def setEndLine? (s : State) (id : ItemId) (line : Nat) : Option State :=
  s.changeItem? id fun i => { i with endLine := some line }

-- ====================================================== scopes and faults

/-- Opens a scope at a token. -/
def openScope (s : State) (scope : Scope) (opener : Token) : State :=
  { s with nesting := s.nesting.push scope (s.rootLine opener) }

/-- Records a fault in the structure. -/
def addErrorAt (s : State) (fault : StructureFault) (t : Token) (line depth : Nat) : State :=
  let error : StructureError :=
    { fault, token := t, rootLine := line, depth, file := s.source.chain.path? t.owner }
  { s with findings := { s.findings with errors := s.findings.errors ++ [error] } }

/-- Records a fault at a token, among the scopes that are open now. -/
def addError (s : State) (fault : StructureFault) (t : Token) : State :=
  s.addErrorAt fault t (s.rootLine t) s.nesting.depth

-- ================================================================ lines

/-- Puts `x` at index `i` of a list that is lengthened by nothing where it is
too short. -/
def putAt {α : Type} (xs : Array (Option α)) (i : Nat) (x : α) : Array (Option α) :=
  (xs ++ Array.replicate (i + 1 - xs.size) none).setIfInBounds i (some x)

/-- Records what holds at the end of a line; the last record counts. -/
def recordLine (s : State) (line : Nat) : State :=
  let lines := putAt s.findings.lines line (.ofNesting s.nesting)
  { s with findings := { s.findings with lines } }

end State

end Parse

end AblOutline
