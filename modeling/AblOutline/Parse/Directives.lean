/-
Directives. A directive reads its operands from the tokens ahead, expanding
references where their values count, and sets how many tokens are then passed
without a look. Branches of `&IF` are scopes:

    &IF a &THEN        opens an &IF on a branch that is taken if a holds
    &ELSEIF b &THEN    turns to a branch taken if none was and b holds
    &ELSE              turns to a branch taken if none was
    &ENDIF             closes the innermost &IF

Nothing is expanded or looked at while some `&IF` is on a branch not taken.
Reading goes on while expansion brings new tokens, so it takes a limit on its
steps, and gives no result when that is reached.
-/
import AblOutline.Nesting.Closing
import AblOutline.Parse.Expansion
import AblOutline.Preprocess.Directive
namespace AblOutline

namespace Parse

open Preprocess

/-- A state after some work, and the fault that ended the work early, if one
did. -/
structure Outcome where
  state : State
  fault : Option AnalysisFault := none
deriving Repr, Inhabited

-- ============================================================= operands

/-- The operands of a directive and the number of tokens that they take in the
stream. -/
structure Operands where
  tokens : List Token
  count : Nat
deriving Repr, Inhabited

namespace Operands

/-- No operand. -/
def none : Operands := ⟨[], 0⟩

/-- The operands with one more at the front, which took `count` tokens. -/
def after (o : Operands) (t : Token) (count : Nat) : Operands := ⟨t :: o.tokens, o.count + count⟩

/-- The first operand that carries meaning. -/
def first? (o : Operands) : Option Token := o.tokens.find? (!·.kind.isTrivia)

/-- The text of an operand; a comment has none and a line break is a blank. -/
def textOf (t : Token) : String :=
  match t.kind with
  | .comment => ""
  | .eol => " "
  | _ => t.text

/-- The text after the first operand that carries meaning. -/
def textAfterFirst (o : Operands) : String :=
  let rest := (o.tokens.dropWhile (·.kind.isTrivia)).drop 1
  Text.trim (String.join (rest.map textOf))

end Operands

/-- The state with the token at `a` expanded, where references are to be
expanded. -/
def lookAt (env : Environment) (live : Bool) (a : Ahead) (s : State) : State :=
  if live then s.expandAt env a false else s

/-- Reads a condition from `a` on. `&THEN` ends it and belongs to it; another
directive or the end of the input ends it too. -/
def readCondition (env : Environment) (live : Bool) :
    Nat → Ahead → State → Option (State × Operands)
  | 0, _, _ => none
  | steps + 1, a, s =>
    let s := lookAt env live a s
    let t := s.source.cursor.peekAhead a
    if t.isEof then some (s, .none)
    else if t.kind = .directive then
      some (s, { tokens := [], count := if Directive.ofWord t.text = .thenPart then 1 else 0 })
    else (readCondition env live steps a.next s).map fun (s, o) => (s, o.after t 1)

/-- Reads from `a` on to the end of the line; a line that ends with a tilde
goes on on the next one. -/
def readLine (env : Environment) (live : Bool) :
    Nat → Ahead → State → Option (State × Operands)
  | 0, _, _ => none
  | steps + 1, a, s =>
    let s := lookAt env live a s
    let t := s.source.cursor.peekAhead a
    let below := s.source.cursor.peekAhead a.next
    if t.isEof || t.kind == .eol then some (s, .none)
    else if t.isSymbol "~" && below.kind == .eol then
      (readLine env live steps a.next.next s).map fun (s, o) => (s, o.after below 2)
    else (readLine env live steps a.next s).map fun (s, o) => (s, o.after t 1)

namespace State

/-- The state in which the operands will be passed over. -/
def skipping (s : State) (o : Operands) : State :=
  { s with source := { s.source with skip := o.count } }

/-- Reads a condition after the current token. -/
def takeCondition (env : Environment) (steps : Nat) (live : Bool) (s : State) :
    Option (State × Operands) :=
  (readCondition env live steps .nearest s).map fun (s, o) => (s.skipping o, o)

/-- Reads the line after the current token. -/
def takeLine (env : Environment) (steps : Nat) (live : Bool) (s : State) :
    Option (State × Operands) :=
  (readLine env live steps .nearest s).map fun (s, o) => (s.skipping o, o)

-- ========================================================= conditionals

/-- A condition holds in file `owner`. -/
def holds (env : Environment) (s : State) (condition : Operands) (owner : Nat) : Bool :=
  Condition.holds env.options.platform
    (fun name => Int64.ofNat (s.source.definedLevel name owner)) condition.tokens

/-- `&IF`. -/
def openIf (env : Environment) (steps : Nat) (s : State) (t : Token) : Option State := do
  let live := !s.inFalseBranch
  let (s, condition) ← s.takeCondition env steps live
  let taken := live && s.holds env condition t.owner
  some { s with nesting := s.nesting.openIf t (s.rootLine t) taken }

/-- `&ELSEIF`. -/
def elseIf (env : Environment) (steps : Nat) (s : State) (t : Token) : Option State :=
  match s.nesting.mayTurn? with
  | none => (s.takeCondition env steps false).map fun (s, _) => s.addError .unexpectedDirective t
  | some live => do
    let (s, condition) ← s.takeCondition env steps live
    let taken := live && s.holds env condition t.owner
    some { s with nesting := s.nesting.turn taken taken }

/-- `&ELSE`. -/
def otherwise (s : State) (t : Token) : State :=
  match s.nesting.mayTurn? with
  | none => s.addError .unexpectedDirective t
  | some live => { s with nesting := s.nesting.turn live true }

/-- `&ENDIF`. -/
def endIf (s : State) (t : Token) : State :=
  match s.nesting.endIf? with
  | none => s.addError .unexpectedDirective t
  | some nesting => { s with nesting }

-- ========================================================== definitions

/-- The directive `t` names nothing. -/
def unnamed (s : State) (t : Token) : Outcome :=
  { state := s, fault := some (.missingName t.text t.lineNumber) }

/-- `&GLOBAL-DEFINE` and `&SCOPED-DEFINE`. A scoped name belongs to the file
that holds its token. -/
def defineName (env : Environment) (steps : Nat) (s : State) (t : Token) (isGlobal : Bool) :
    Option Outcome := do
  let (s, operands) ← s.takeLine env steps true
  match operands.first? with
  | none => some (s.unnamed t)
  | some name =>
    let value := operands.textAfterFirst
    let definitions :=
      if isGlobal then s.source.definitions.defineGlobal name.text value
      else s.source.definitions.defineScoped name.owner name.text value
    let s := { s with source := { s.source with definitions } }
    some { state := s.addItem name.text name (.name value isGlobal false) }

/-- `&UNDEFINE`. -/
def undefineName (env : Environment) (steps : Nat) (s : State) (t : Token) : Option Outcome := do
  let (s, operands) ← s.takeLine env steps false
  match operands.first? with
  | none => some (s.unnamed t)
  | some name =>
    let definitions :=
      s.source.definitions.undefine name.text (s.source.chain.lineage name.owner)
    let s := { s with source := { s.source with definitions } }
    some { state := s.addItem name.text name (.name "" false true) }

-- ============================================================= sections

/-- `&ANALYZE-SUSPEND`. -/
def openSection (env : Environment) (steps : Nat) (s : State) (t : Token) : Option State := do
  let (s, operands) ← s.takeLine env steps false
  let type := operands.first?.elim "" (·.text)
  let description := operands.textAfterFirst
  let name := if description = "" then type else description
  let id := s.nextItem
  let s := s.addItem name t (.editorSection type description)
  some (s.openScope (.suspended id t) t)

/-- `&ANALYZE-RESUME`. -/
def endSection (env : Environment) (steps : Nat) (s : State) (t : Token) : Option Outcome := do
  let (s, _) ← s.takeLine env steps false
  match s.nesting.endSection? with
  | none => some { state := s.addError .unexpectedResume t }
  | some (scope, nesting) =>
    let s := { s with nesting }
    match scope.item? with
    | none => some { state := s }
    | some item =>
      match s.setEndLine? item (s.rootLine t) with
      | some s => some { state := s }
      | none => some { state := s, fault := some (.danglingItem item) }

-- =========================================================== directives

/-- What the directive `t` does to the state. On a branch that is not taken
only the branches themselves are followed. -/
def directive (env : Environment) (steps : Nat) (s : State) (t : Token) : Option Outcome :=
  let directive := Directive.ofWord t.text
  let faultless (result : Option State) : Option Outcome := result.map fun s => { state := s }
  match directive with
  | .ifThen => faultless (s.openIf env steps t)
  | .elseIf => faultless (s.elseIf env steps t)
  | .otherwise => faultless (some (s.otherwise t))
  | .endIf => faultless (some (s.endIf t))
  | .thenPart | .other => faultless (some s)
  | .globalDefine | .scopedDefine | .undefine | .analyzeSuspend | .analyzeResume | .message =>
    if s.inFalseBranch then faultless ((s.takeLine env steps false).map (·.1))
    else
      match directive with
      | .globalDefine => s.defineName env steps t true
      | .scopedDefine => s.defineName env steps t false
      | .undefine => s.undefineName env steps t
      | .analyzeSuspend => faultless (s.openSection env steps t)
      | .analyzeResume => s.endSection env steps t
      | _ => faultless ((s.takeLine env steps false).map (·.1))

end State

end Parse

end AblOutline
