/-
Expansion of the tokens ahead. A reference is replaced by the tokens of its
value, in its own place:

    current        ahead
    [ .. DISPLAY {&x} . ]      the tokens of x take the place of {&x}
    [ .. {inc.i a} DO ..  ]    those of the file are put in after {inc.i a}

A value is expanded again where it stands, so values may refer to other
values; `maxExpansionDepth` bounds how often that may go on at one place. An
include directive stays in the stream, and is expanded once only: the state
remembers how many of the tokens ahead are expanded already.
-/
import AblOutline.Parse.State
import AblOutline.Preprocess.Arguments
import AblOutline.Token.Lexer
namespace AblOutline

namespace Parse

open Preprocess

-- =============================================================== values

/-- Names whose value no definition gives. -/
inductive Builtin where
  | fileName
  | lineNumber
  | sequence
  | opsys
  | windowSystem
  | batchMode
deriving DecidableEq, Repr, Inhabited

/-- The built-in name of that spelling. -/
def Builtin.ofName? (name : String) : Option Builtin :=
  match Text.upper name with
  | "FILE-NAME" => some .fileName
  | "LINE-NUMBER" => some .lineNumber
  | "SEQUENCE" => some .sequence
  | "OPSYS" => some .opsys
  | "WINDOW-SYSTEM" => some .windowSystem
  | "BATCH-MODE" => some .batchMode
  | _ => none

/-- The value of a built-in name in `file`, for a reference at `t`. -/
def Builtin.value (platform : Platform) (sequence : Nat) (file : ChainFile) (t : Token) :
    Builtin → String
  | .fileName => file.path.getD file.name
  | .lineNumber => toString t.lineNumber
  | .sequence => toString sequence
  | .opsys => platform.opsys
  | .windowSystem => platform.windowSystem
  | .batchMode => if platform.batchMode then "yes" else "no"

/-- What a reference stands for. -/
inductive Meaning where
  /-- A value that is there already. -/
  | value (text : String)
  | builtin (name : Builtin)
deriving DecidableEq, Repr, Inhabited

namespace Source

/-- The argument of `file` that a name stands for by its form: all arguments,
all named ones, the file name or the argument of a number. The outer nothing
says that the name is of no such form. -/
def argumentByForm? (file : ChainFile) (name : String) : Option (Option String) :=
  if name = "*" then some (some file.arguments.rawArguments)
  else if name = "&*" then some (some file.arguments.namedText)
  else if name = "0" then some (some file.name)
  else if name ≠ "" ∧ name.toList.all Char.isDigit then
    some ((Text.natural? 10 name.toList).bind file.arguments.position?)
  else none

/-- What `name` stands for in file `owner`: a form of arguments, else a named
argument, else a definition, else a built-in name. -/
def meaning? (s : Source) (name : String) (owner : Nat) : Option Meaning := do
  let file ← s.chain.get? owner
  match argumentByForm? file name with
  | some argument => argument.map .value
  | none =>
    match s.chain.argument? name owner with
    | some value => some (.value value)
    | none =>
      match s.definitions.lookup name (s.chain.lineage owner) with
      | some (value, _) => some (.value value)
      | none => (Builtin.ofName? name).map .builtin

/-- The text that a reference at `t` to `name` stands for. -/
def referenceValue? (platform : Platform) (s : Source) (name : String) (t : Token) :
    Option String := do
  let file ← s.chain.get? t.owner
  match ← s.meaning? name t.owner with
  | .value text => some text
  | .builtin b => some (b.value platform s.sequence file t)

/-- The source after a reference to `name` from file `owner` has been read: a
reference to the sequence moves it on. -/
def afterReference (s : Source) (name : String) (owner : Nat) : Source :=
  if s.meaning? name owner = some (.builtin .sequence) then
    { s with sequence := s.sequence + 1 }
  else s

/-- What `DEFINED(name)` answers in file `owner`; nothing defined is zero. -/
def definedLevel (s : Source) (name : String) (owner : Nat) : Nat :=
  match s.chain.argument? name owner with
  | some _ => Origin.argument.level
  | none => ((s.definitions.lookup name (s.chain.lineage owner)).map (·.2.level)).getD 0

end Source

-- ========================================================= substitution

/-- A token of a value, in the place of the reference `t`. It keeps its text
but for a line break, which becomes a blank. -/
def standingFor (t v : Token) : Token :=
  let v := if v.kind = .eol then { v with kind := .blank, text := " " } else v
  { v with start := t.start, range := t.range, owner := t.owner }

namespace State

/-- The tokens that the reference `t` stands for; none when nothing gives it a
value. -/
def valueTokens (platform : Platform) (s : State) (t : Token) : List Token :=
  let value := s.source.referenceValue? platform (referenceName t.text) t
  (tokenizeFragment (value.getD "") t.owner).map (standingFor t)

/-- Replaces the reference `t` at `a` by the tokens of its value. -/
def substitute (platform : Platform) (s : State) (a : Ahead) (t : Token) : State :=
  let name := referenceName t.text
  let value := s.source.referenceValue? platform name t
  let tokens := s.valueTokens platform t
  let s := s.addItem name t (.nameUse value.isSome)
  let source := s.source.afterReference name t.owner
  { s with source := { source with cursor := source.cursor.splice a tokens } }

/-- The references that stand in a row from `a` on. -/
def referencesAt (s : State) (a : Ahead) : List Token :=
  (s.source.cursor.ahead.drop a.skipped).takeWhile (·.kind == .reference)

/-- Replaces the first of the references that stand in a row from `a` on by its
value, and as long as a value is empty the next one too, which then stands at
`a`; tells whether a value that is not empty was put in. -/
def substituteFirst (platform : Platform) (a : Ahead) : List Token → State → State × Bool
  | [], s => (s, false)
  | t :: rest, s =>
    let after := s.substitute platform a t
    if (s.valueTokens platform t).isEmpty then substituteFirst platform a rest after
    else (after, true)

/-- Replaces references at `a` until `depth` values that are not empty have
been put in or something else stands there. -/
def settle (platform : Platform) (a : Ahead) : Nat → State → State
  | 0, s => s
  | depth + 1, s =>
    match s.substituteFirst platform a (s.referencesAt a) with
    | (s, true) => settle platform a depth s
    | (s, false) => s

-- ============================================================= includes

/-- The tokens of the file at a path: from the cache, or read and then kept
there. -/
def tokensAt (resolver : Resolver) (s : Source) (path : String) : Option (List Token) × Source :=
  match s.cache.get? path with
  | some tokens => (some tokens, s)
  | none =>
    let s := { s with asked := .load path :: s.asked }
    match resolver.load path with
    | .error _ => (none, s)
    | .ok text =>
      let tokens := tokenize text
      (some tokens, { s with cache := s.cache.insert path tokens })

/-- The path of an included file, and its tokens if it can be read. -/
def openInclude (resolver : Resolver) (s : Source) (name : String) (owner : Nat) :
    Option String × Option (List Token) × Source :=
  let including := s.chain.path? owner
  let s := { s with asked := .resolve name including :: s.asked }
  match resolver.resolve name including with
  | none => (none, none, s)
  | some path =>
    let (tokens, s) := tokensAt resolver s path
    (some path, tokens, s)

/-- Puts the tokens of the file that `t` includes in after it, where `t`
stands at `a`. Past the depth allowed, or without a file name, nothing is
done. -/
def includeAt (env : Environment) (s : State) (a : Ahead) (t : Token) : State :=
  if env.options.maxIncludeDepth < (s.source.chain.lineage t.owner).length then s
  else
    match IncludeCall.parse? t.text with
    | none => s
    | some call =>
      let (path, tokens, source) := openInclude env.resolver s.source call.file t.owner
      let s := { s with source }
      match tokens with
      | none => s.addItem call.file t (.inclusion path none)
      | some tokens =>
        let owner := source.chain.size
        let file : ChainFile :=
          { name := call.file, path, trigger := some t, parent := some t.owner
            rootLine := s.rootLine t, arguments := call }
        let s := { s with source := { source with chain := source.chain.push file } }
        let s := s.addItem call.file t (.inclusion path (some owner))
        let own := (tokens.filter (!·.isEof)).map (·.withOwner owner)
        { s with source := { s.source with cursor := s.source.cursor.insert a.next own } }

-- ============================================================ expansion

/-- The token at `a` is expanded already. -/
def isExpanded (s : State) (a : Ahead) : Bool := decide (a.skipped < s.source.expanded)

/-- Remembers that all through `a` is expanded. -/
def markExpanded (s : State) (a : Ahead) : State :=
  { s with source := { s.source with expanded := max s.source.expanded a.distance } }

/-- Puts in the file that an include directive at `a` names. -/
def expandInclude (env : Environment) (s : State) (a : Ahead) : State :=
  let t := s.source.cursor.peekAhead a
  if t.kind = .inclusion then s.includeAt env a t else s

/-- Expands the token at `a`: references first, then, where `includes` says
so, an include directive. -/
def expandAt (env : Environment) (a : Ahead) (includes : Bool) (s : State) : State :=
  if s.isExpanded a then s
  else
    let s := s.settle env.options.platform a env.options.maxExpansionDepth
    if includes then (s.expandInclude env a).markExpanded a else s

end State

end Parse

end AblOutline
