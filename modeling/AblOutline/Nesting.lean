/-
The scopes that are open at a place of a source:

  file                       opened first, closed with the input
    routine                  PROCEDURE p:          to  END PROCEDURE.
      conditional            &IF c &THEN           to  &ENDIF
        block                DO:                   to  END.

A scope need not be closed in the order of opening: an `&ENDIF` closes its
`&IF` even while a block opened in its branch is still open. Closing one scope
leaves all others as they were.
-/
import AblOutline.Token.Basic
namespace AblOutline

/-- Number of an item in the order of finding. -/
abbrev ItemId := Nat

/-- What sort of body a routine scope is. -/
inductive RoutineKind where
  | procedure
  | function
  /-- A method, constructor or destructor. -/
  | method
  /-- The block of an `ON` statement. -/
  | trigger
deriving DecidableEq, Repr, Inhabited

/-- What sort of scope is open. -/
inductive ScopeKind where
  | file
  | procedure
  | function
  | method
  | trigger
  | conditional
  | suspended
  | block
deriving DecidableEq, Repr, Inhabited

namespace ScopeKind

/-- The name of the kind in records. -/
def name : ScopeKind → String
  | .file => "File"
  | .procedure => "Procedure"
  | .function => "Function"
  | .method => "Method"
  | .trigger => "Trigger"
  | .conditional => "PreprocIf"
  | .suspended => "PreprocSuspend"
  | .block => "Block"

/-- The short name of the kind in reports. -/
def label : ScopeKind → String
  | .file => "file"
  | .procedure => "procedure"
  | .function => "function"
  | .method => "method"
  | .trigger => "trigger"
  | .conditional => "&if"
  | .suspended => "suspend"
  | .block => "block"

/-- All kinds. -/
def all : List ScopeKind :=
  [.file, .procedure, .function, .method, .trigger, .conditional, .suspended, .block]

/-- The kind of the given name. -/
def ofName? (name : String) : Option ScopeKind := all.find? (·.name == name)

end ScopeKind

/-- A scope that is open. -/
inductive Scope where
  | file (item : ItemId)
  /-- A routine body; `keyword` is the word that its `END` may name. -/
  | routine (item : ItemId) (kind : RoutineKind) (keyword : String) (opener : Token)
  /-- An `&IF`: whether the current branch is taken, and whether one was. -/
  | conditional (opener : Token) (active taken : Bool)
  /-- A section between `&ANALYZE-SUSPEND` and `&ANALYZE-RESUME`. -/
  | suspended (item : ItemId) (opener : Token)
  | block (opener : Token) (keyword : String) (label : Option ItemId)
deriving DecidableEq, Repr, Inhabited

namespace Scope

/-- The item that owns what is found in the scope. -/
def item? : Scope → Option ItemId
  | file item | routine item _ _ _ | suspended item _ => some item
  | conditional _ _ _ | block _ _ _ => none

/-- The token that opened the scope. -/
def opener? : Scope → Option Token
  | file _ => none
  | routine _ _ _ opener | conditional opener _ _ | suspended _ opener | block opener _ _ =>
    some opener

/-- The kind of the scope. -/
def kind : Scope → ScopeKind
  | file _ => .file
  | routine _ .procedure _ _ => .procedure
  | routine _ .function _ _ => .function
  | routine _ .method _ _ => .method
  | routine _ .trigger _ _ => .trigger
  | conditional _ _ _ => .conditional
  | suspended _ _ => .suspended
  | block _ _ _ => .block

/-- `END` closes the scope. -/
def isBlockLike : Scope → Bool
  | routine _ _ _ _ | block _ _ _ => true
  | file _ | conditional _ _ _ | suspended _ _ => false

/-- An `&IF`. -/
def isConditional : Scope → Bool
  | conditional _ _ _ => true
  | _ => false

/-- An editor section. -/
def isSuspended : Scope → Bool
  | suspended _ _ => true
  | _ => false

/-- False for an `&IF` whose current branch is not taken. -/
def isActive : Scope → Bool
  | conditional _ active _ => active
  | _ => true

/-- A procedure, function or method body. -/
def isRoutine : Scope → Bool
  | routine _ kind _ _ => kind != .trigger
  | _ => false

end Scope

/-- What records keep of an open scope. -/
structure Frame where
  kind : ScopeKind
  item : Option ItemId
  /-- The line of the opener in the file being read. -/
  line : Nat
  active : Bool
deriving DecidableEq, Repr, Inhabited

/-- An open scope and the line, in the file being read, that opened it. -/
structure OpenScope where
  scope : Scope
  line : Nat
deriving DecidableEq, Repr, Inhabited

/-- What records keep of the scope. -/
def OpenScope.frame (o : OpenScope) : Frame :=
  ⟨o.scope.kind, o.scope.item?, o.line, o.scope.isActive⟩

/-- The open scopes, the innermost first. -/
structure Nesting where
  scopes : List OpenScope := []
deriving DecidableEq, Repr, Inhabited

namespace Nesting

-- =============================================================== looking

/-- The number of open scopes. -/
def depth (n : Nesting) : Nat := n.scopes.length

/-- Some open `&IF` is on a branch that is not taken. -/
def inFalseBranch (n : Nesting) : Bool := n.scopes.any (!·.scope.isActive)

/-- The item that owns what is found at this place. -/
def currentItem? (n : Nesting) : Option ItemId := n.scopes.findSome? (·.scope.item?)

/-- The number of open procedures, functions and methods. -/
def openRoutines (n : Nesting) : Nat := n.scopes.countP (·.scope.isRoutine)

/-- The open scopes as records keep them, the outermost first. -/
def frames (n : Nesting) : List Frame := (n.scopes.map (·.frame)).reverse

-- =========================================================== innermost

/-- The scopes within the innermost one that satisfies `p`, that scope, and
those around it. -/
def splitScopes (p : Scope → Bool) :
    List OpenScope → Option (List OpenScope × OpenScope × List OpenScope)
  | [] => none
  | o :: rest =>
    if p o.scope then some ([], o, rest)
    else (splitScopes p rest).map fun (within, found, around) => (o :: within, found, around)

/-- The innermost scope that satisfies `p`, parted from those within and
around it. -/
def innermost? (n : Nesting) (p : Scope → Bool) :
    Option (List OpenScope × OpenScope × List OpenScope) :=
  splitScopes p n.scopes

/-- Every `&IF` among the scopes is on a taken branch. -/
def allActive (scopes : List OpenScope) : Bool := scopes.all (·.scope.isActive)

-- ============================================================== changing

/-- Opens a scope within all others. -/
def push (n : Nesting) (scope : Scope) (line : Nat) : Nesting := ⟨⟨scope, line⟩ :: n.scopes⟩

/-- The innermost scope and the scopes around it. -/
def pop? (n : Nesting) : Option (OpenScope × Nesting) :=
  match n.scopes with
  | [] => none
  | o :: rest => some (o, ⟨rest⟩)

-- ============================================================== by index

/-- Place, counted from the innermost scope, of the scope with that index
counted from the outermost. -/
def place? (n : Nesting) (index : Nat) : Option Nat :=
  if index < n.depth then some (n.depth - 1 - index) else none

/-- Index of the innermost scope that satisfies `p`. -/
def indexOf? (n : Nesting) (p : Scope → Bool) : Option Nat :=
  (n.innermost? p).map fun (_, _, around) => around.length

/-- The scope with that index. -/
def get? (n : Nesting) (index : Nat) : Option OpenScope :=
  (n.place? index).bind (n.scopes[·]?)

/-- The scope with that index, and the scopes without it. -/
def remove? (n : Nesting) (index : Nat) : Option (OpenScope × Nesting) := do
  let place ← n.place? index
  let found ← n.scopes[place]?
  some (found, ⟨n.scopes.eraseIdx place⟩)

/-- Every `&IF` around the scope with that index is on a taken branch. -/
def activeAround (n : Nesting) (index : Nat) : Bool :=
  allActive (n.scopes.drop (n.depth - index))

/-- Says whether the branch of the `&IF` with that index is taken; leaves any
other scope as it is. -/
def setActive (n : Nesting) (index : Nat) (active : Bool) : Nesting :=
  match n.place? index with
  | none => n
  | some place =>
    ⟨n.scopes.modify place fun o =>
      match o.scope with
      | .conditional opener _ taken => { o with scope := .conditional opener active taken }
      | _ => o⟩

-- ================================================================= laws

@[simp] theorem depth_push (n : Nesting) (scope : Scope) (line : Nat) :
    (n.push scope line).depth = n.depth + 1 := rfl

@[simp] theorem frames_push (n : Nesting) (scope : Scope) (line : Nat) :
    (n.push scope line).frames = n.frames ++ [OpenScope.frame ⟨scope, line⟩] := by
  simp [push, frames]

/-- Parting the scopes loses and reorders none of them. -/
theorem splitScopes_eq_some {p : Scope → Bool} {scopes within around : List OpenScope}
    {found : OpenScope} (h : splitScopes p scopes = some (within, found, around)) :
    scopes = within ++ found :: around ∧ p found.scope = true := by
  induction scopes generalizing within with
  | nil => simp [splitScopes] at h
  | cons o rest ih =>
    rw [splitScopes] at h
    split at h
    · simp_all
    · obtain ⟨⟨within', found', around'⟩, hr, he⟩ := Option.map_eq_some_iff.1 h
      simp only [Prod.mk.injEq] at he
      obtain ⟨rfl, rfl, rfl⟩ := he
      obtain ⟨rfl, hp⟩ := ih hr
      exact ⟨rfl, hp⟩

end Nesting

end AblOutline
