/-
The parse of a file: one pass over its tokens.

    text      tokens, with a cursor before the first one
      loop    move on by one token
              keep the record of lines and statements
              look at the token: directives, statements
              expand the token ahead
    end       end the last statement, close all scopes

The token ahead is expanded only after the current one was looked at, so
nothing on a branch that is not taken is expanded. A fault ends the look at
one token only; nothing ends the pass but the end of the tokens. Since
included files may bring in tokens for ever, a parse takes a limit on its
steps, and gives no result when that is reached.
-/
import AblOutline.Parse.Statements
namespace AblOutline

namespace Parse

namespace State

-- ================================================================= start

/-- The name of the file at a path. -/
def rootName (path : Option String) : String := (path.bind Path.fileName?).getD "<input>"

/-- The state before anything is read or expanded: the file is open. -/
def opened (cache : TokenCache) (text : String) (path : Option String) : State :=
  let name := rootName path
  let file : ChainFile := { name, path, trigger := none, parent := none, rootLine := 0 }
  let s : State := { source := { cursor := .ofTokens (tokenize text), chain := ⟨#[file]⟩, cache } }
  let s := s.addItemIn none name (Token.eof .origin 0) (.file path)
  { s with nesting := s.nesting.push (.file 0) 0 }

/-- The state before the first token. -/
def start (env : Environment) (cache : TokenCache) (text : String) (path : Option String) :
    State :=
  ((opened cache text path).expandAt env .nearest true).expandAt env Ahead.nearest.next true

-- ================================================================== step

/-- Takes the statement read so far, leaving none. -/
def takeStatement (s : State) : Statement × State :=
  (s.analysis.statement, { s with analysis := { s.analysis with statement := {} } })

/-- Takes the statement that a stop ends. On a branch that is not taken it is
dropped, and so is one without parts. -/
def stopStatement (s : State) : Option Statement × State :=
  let (statement, s) := s.takeStatement
  let s := { s with analysis := { s.analysis with restart := false } }
  if statement.isEmpty || s.inFalseBranch then (none, s) else (some statement, s)

/-- What is recorded of every token, looked at or not: the line it ends, or
the statement. -/
def observe (s : State) (t : Token) (skipped : Bool) : Option Statement × State :=
  match t.kind with
  | .eol => (none, s.recordLine (s.rootLine t))
  | .eos => if skipped then (none, s) else s.stopStatement
  | _ => (none, s)

/-- Remembers that something was passed over. -/
def space (s : State) : State := { s with analysis := { s.analysis with spaced := true } }

/-- Looks at a token, which ends the statement `ended` if it ends one. -/
def look (env : Environment) (steps : Nat) (s : State) (t : Token) (ended : Option Statement) :
    Option Outcome :=
  if s.nesting.depth = 0 then some (s.refused (.noScope t.lineNumber))
  else
    match t.kind with
    | .directive => s.directive env steps t
    | kind =>
      if s.inFalseBranch then some s.done
      else
        match kind with
        | .blank | .comment | .eol => some s.space.done
        | .eos =>
          match ended with
          | some statement => some (s.space.endStatement env statement t)
          | none => some s.space.done
        | .inclusion | .reference | .eof => some s.done
        | _ => some (s.readToken env t).done

/-- Expands the token ahead, where the next token will be looked at. -/
def expandNext (env : Environment) (s : State) : State :=
  if s.source.skip = 0 && !s.inFalseBranch then s.expandAt env .nearest true else s

/-- What the current token does to the state. -/
def step (env : Environment) (steps : Nat) (s : State) (t : Token) : Option State := do
  let skipped := decide (0 < s.source.skip)
  let (ended, s) := s.observe t skipped
  if skipped then
    some ({ s with source := { s.source with skip := s.source.skip - 1 } }.expandNext env)
  else
    let outcome ← s.look env steps t ended
    some (outcome.state.expandNext env)

/-- Moves on by one token, if there is one. -/
def advance? (s : State) : Option State :=
  s.source.cursor.advance?.map fun cursor =>
    { s with source := { s.source with cursor, expanded := s.source.expanded - 1 } }

/-- Reads all tokens that are left, in `steps` steps at most. -/
def run (env : Environment) : Nat → State → Option State
  | 0, _ => none
  | steps + 1, s =>
    match s.advance? with
    | none => some s
    | some s =>
      let t := s.source.cursor.current
      if t.isEof then some s
      else
        match s.step env steps t with
        | none => none
        | some s => run env steps s

-- =================================================================== end

/-- Ends the statement that is still being read at the end of the tokens. -/
def endLast (env : Environment) (s : State) (eof : Token) : State :=
  let (statement, s) := s.takeStatement
  if statement.isEmpty || s.inFalseBranch then s
  else (s.endStatement env statement eof).state

/-- What it is to leave a scope open; the file may be. -/
def faultOf? : Scope → Option StructureFault
  | .file _ => none
  | .routine _ _ _ _ | .block _ _ _ => some .missingEnd
  | .conditional _ _ _ => some .missingEndIf
  | .suspended _ _ => some .missingResume

/-- Leaves one scope at the end of the tokens, where `depth` were open. -/
def leave (line : Nat) (s : State) (o : OpenScope) (depth : Nat) : State :=
  match o.scope with
  | .file item => (s.setEndLine? item line).getD s
  | scope =>
    match faultOf? scope, scope.opener? with
    | some fault, some opener => s.addErrorAt fault opener o.line depth
    | _, _ => s

/-- Leaves all scopes at the end of the tokens, the innermost first. -/
def leaveAll (line : Nat) (s : State) : List OpenScope → State
  | [] => s
  | o :: around => leaveAll line (leave line s o (around.length + 1)) around

/-- The state after the last token, and what holds on each line. -/
def finish (env : Environment) (s : State) : State :=
  let eof := s.source.cursor.current
  let line := s.rootLine eof
  let s := (s.recordLine line).endLast env eof
  leaveAll line s s.nesting.scopes

end State

/-- The result of a parse, the cache after it, and the questions it put to the
resolver. -/
structure Result where
  file : ParsedFile
  cache : TokenCache
  asked : List Query
deriving Repr, Inhabited

/-- The result that the last state of a parse holds. -/
def Result.ofState (options : Options) (s : State) : Result :=
  let path := s.source.chain.path? 0
  { file := {
      path
      items := s.findings.items
      lines := LineState.fill s.findings.lines.toList
      errors := s.findings.errors
      chain := s.source.chain
      tokens := if options.keepExpandedText then some s.source.cursor.tokens else none
      finalDepth := s.nesting.depth }
    cache := path.elim s.source.cache s.source.cache.invalidate
    asked := s.source.asked.reverse }

end Parse

/-- Parses `text` as the file at `path`, over a cache of included files, in
`steps` steps at most. -/
def parse? (steps : Nat) (env : Environment) (cache : TokenCache) (text : String)
    (path : Option String) : Option Parse.Result :=
  ((Parse.State.start env cache text path).run env steps).map fun s =>
    Parse.Result.ofState env.options (s.finish env)

end AblOutline
