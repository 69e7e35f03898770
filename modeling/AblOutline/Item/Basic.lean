/-
What a parse finds in a source. Items are numbered in the order of finding;
each knows the item in whose scope it was found, and items that own a scope
list those found in it, so the items form a tree with the file at its root.
-/
import AblOutline.Keyword.Define
import AblOutline.Keyword.Primitive
import AblOutline.Nesting
namespace AblOutline

namespace Item

/-- A procedure. -/
structure Procedure where
  /-- The library that holds it, for an `EXTERNAL` one. -/
  external : Option String
  isPrivate : Bool
  inSuper : Bool
deriving DecidableEq, Repr, Inhabited

/-- A function that is declared without a body here. -/
structure Prototype where
  returnType : String
  parameters : String
  forward : Bool
  /-- The handle after `IN`. -/
  inHandle : Option String
  implementation : Option ItemId
deriving DecidableEq, Repr, Inhabited

/-- A function with a body. -/
structure Implementation where
  returnType : String
  parameters : String
  isPrivate : Bool
  prototype : Option ItemId
deriving DecidableEq, Repr, Inhabited

/-- What a method is to its class. -/
inductive MethodKind where
  | method
  | constructor
  | destructor
deriving DecidableEq, Repr, Inhabited

/-- The name of the kind in records. -/
def MethodKind.name : MethodKind → String
  | .method => "Method"
  | .constructor => "Constructor"
  | .destructor => "Destructor"

/-- A method, constructor or destructor. -/
structure Method where
  kind : MethodKind
  returnType : String
  modifiers : List String
  parameters : String
  /-- It has no body: an interface or an abstract method. -/
  declarationOnly : Bool
deriving DecidableEq, Repr, Inhabited

/-- A `RUN` statement. -/
structure Run where
  target : String
  /-- The target is an expression, `RUN VALUE(...)`. -/
  dynamic : Bool
  persistent : Bool
  inHandle : Option String
  hasParameters : Bool
deriving DecidableEq, Repr, Inhabited

/-- An `ON` statement. -/
structure Trigger where
  events : String
  /-- What follows `OF`; empty for a trigger on all widgets. -/
  widgets : String
  hasBlock : Bool
deriving DecidableEq, Repr, Inhabited

/-- Anything else that `DEFINE` or `VAR` defines. -/
structure Definition where
  type : DefineType
  /-- The type after `AS`, as written. -/
  asType : String
  primitive : Option Primitive
  /-- What follows `LIKE`. -/
  like : Option String
  modifiers : List String
deriving DecidableEq, Repr, Inhabited

/-- What an item is. -/
inductive Content where
  | file (path : Option String)
  /-- An editor section, with the first word after its directive and the rest
  of the line. -/
  | editorSection (type description : String)
  | procedure (procedure : Procedure)
  | prototype (prototype : Prototype)
  | implementation (implementation : Implementation)
  | method (method : Method)
  /-- A label, with the first word of the block it names. -/
  | label (block : Option String)
  | run (run : Run)
  | trigger (trigger : Trigger)
  /-- A call of a function: a declaration of it came before; its name was given
  as a text. -/
  | call (declared dynamic : Bool)
  | tableUse (temporary : Bool)
  | buffer (table : String) (temporary : Bool)
  | definition (definition : Definition)
  /-- A preprocessor name given a value, or taken back. -/
  | name (value : String) (isGlobal undefine : Bool)
  /-- A reference to a preprocessor name. -/
  | nameUse (defined : Bool)
  /-- An include directive, with the number of its file in the include
  chain. -/
  | inclusion (path : Option String) (owner : Option Nat)
  | event
  | word
  | snippet
deriving DecidableEq, Repr, Inhabited

namespace Content

/-- An item of this content owns what is found in its scope. -/
def isScope : Content → Bool
  | file _ | editorSection _ _ | procedure _ | implementation _ | method _ | trigger _ => true
  | _ => false

/-- The name of the content in reports. -/
def reportName : Content → String
  | file _ => "file"
  | editorSection _ _ => "preproc-block"
  | procedure _ => "procedure"
  | prototype _ => "prototype"
  | implementation _ => "implementation"
  | method _ => "method"
  | label _ => "label"
  | run _ => "run"
  | trigger _ => "on"
  | call _ _ => "function-call"
  | tableUse _ => "table-use"
  | buffer _ _ => "buffer"
  | definition _ => "define"
  | name _ _ _ => "preproc-variable"
  | nameUse _ => "preproc-variable-use"
  | inclusion _ _ => "include"
  | event => "event"
  | word => "word"
  | snippet => "snippet"

end Content

end Item

/-- Something found in a source. -/
structure Item where
  id : ItemId
  name : String
  /-- The token that declares or makes it. -/
  token : Token
  /-- Its line in the file being read. -/
  rootLine : Nat
  /-- The item in whose scope it was found; the file alone has none. -/
  scope : Option ItemId
  /-- The items found in its scope. -/
  children : List ItemId := []
  /-- The line in the file being read where its block ends. -/
  endLine : Option Nat := none
  content : Item.Content
deriving DecidableEq, Repr, Inhabited

namespace Item

/-- The number, in the include chain, of the file that holds the item. -/
def owner (i : Item) : Nat := i.token.owner

/-- The item owns what is found in its scope. -/
def isScope (i : Item) : Bool := i.content.isScope

end Item

end AblOutline
