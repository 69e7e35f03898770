/-
The words of a statement, each looked at as it is read: calls of functions,
uses of tables, template snippets, and words that nobody knows.
-/
import AblOutline.Parse.State
import AblOutline.Statement.Action
import AblOutline.Text.Split
namespace AblOutline

namespace Parse

-- =============================================================== naming

/-- A template snippet, `$...$`. -/
def isSnippet (word : String) : Bool :=
  let cs := word.toList
  decide (2 < cs.length) && cs.head? == some '$' && cs.getLast? == some '$'

/-- A name without what qualifies it: `table` of `database.table`. -/
def unqualified (name : String) : String := ((Text.splitLast? '.' name).map (·.2)).getD name

namespace State

-- ================================================================ calls

/-- The word calls a function: a parenthesis follows, nothing says that it is
a method or a class, the statement declares no parameters, and it is a
function of the file or at least no keyword. -/
def isCall (env : Environment) (s : State) (t : Token) (spaced : Bool) : Bool :=
  let before := s.source.cursor.lastSignificant
  s.source.cursor.nextSignificant.isSymbol "("
    && !before.isSymbol ":" && !before.isWord "NEW"
    && !s.analysis.statement.kind.isHeader && !s.analysis.statement.inTarget spaced
    && ((s.function? t.text).isSome || !env.directory.isKeyword t.text)

/-- Records a call. -/
def addCall (s : State) (name : String) (t : Token) (dynamic : Bool) : State :=
  s.addItem name t (.call (s.function? name).isSome dynamic)

/-- The name in `DYNAMIC-FUNCTION("name" ...)`, right after that word. -/
def dynamicName? (s : State) : Option String :=
  let (offset, paren) := s.source.cursor.findOther 0 TokenKind.trivia false
  let (_, name) := s.source.cursor.findOther offset TokenKind.trivia false
  if paren.isSymbol "(" ∧ name.kind = .string then some name.unquoted else none

-- =============================================================== tables

/-- The table that a word uses, and whether it is temporary: a table of the
schema, named itself or through a field, or one that the file defines. -/
def tableOf? (s : State) (kind : Option SymbolKind) (word : String) : Option (String × Bool) :=
  match kind with
  | some .table => some (unqualified word, false)
  | some .field | some .keyField =>
    (Text.splitLast? '.' word).map fun (table, _) => (unqualified table, false)
  | _ => (s.localTable? word).map fun temporary => (unqualified word, temporary)

/-- Records the use of a table, once in each scope. -/
def useTable (s : State) (t : Token) (table : String) (temporary : Bool) : State :=
  let use := (s.scopeItem?, Text.lower table)
  if s.analysis.tableUses.contains use then s
  else
    let s := s.addItem table t (.tableUse temporary)
    { s with analysis := { s.analysis with tableUses := use :: s.analysis.tableUses } }

-- ================================================================ words

/-- Records an unknown word, once in the file. -/
def addUnknown (s : State) (t : Token) : State :=
  let key := Text.lower t.text
  if s.analysis.seenWords.contains key then s
  else
    let s := s.addItem t.text t .word
    { s with analysis := { s.analysis with seenWords := key :: s.analysis.seenWords } }

/-- Looks at a word for the names it uses. -/
def useNames (env : Environment) (s : State) (t : Token) : State :=
  let kind := env.directory.classify t.text
  let s :=
    match s.tableOf? kind t.text with
    | some (table, temporary) => s.useTable t table temporary
    | none => s
  if env.options.matchKnownWords && kind.isNone then s.addUnknown t else s

/-- The table that a word names is used first, where there is one. -/
theorem useNames_eq (env : Environment) (s : State) (t : Token) :
    s.useNames env t =
      let kind := env.directory.classify t.text
      let used := (s.tableOf? kind t.text).elim s fun use => s.useTable t use.1 use.2
      if env.options.matchKnownWords && kind.isNone then used.addUnknown t else used := by
  unfold useNames
  dsimp only
  cases s.tableOf? (env.directory.classify t.text) t.text <;> rfl

/-- Looks at a word of a statement. -/
def lookAtWord (env : Environment) (s : State) (t : Token) (spaced : Bool) : State :=
  if isSnippet t.text then s.addItem t.text t .snippet
  else if t.isWord "DYNAMIC-FUNCTION" then
    match s.dynamicName? with
    | some name => s.addCall name t true
    | none => s
  else if s.isCall env t spaced then s.addCall t.text t false
  else s.useNames env t

-- =========================================================== statements

/-- Begins a statement at a word. -/
def beginStatement (s : State) (t : Token) (trigger : Option ItemId) : State :=
  let statement : Statement := { kind := StatementKind.ofWord t.text, trigger }
  { s with analysis := { s.analysis with statement } }

/-- Records the trigger that a statement sets, at its first token. -/
def addTrigger (s : State) (statement : Statement) (first : Token) : State :=
  let head := statement.triggerHead
  s.addItem (Statement.triggerName head) first (.trigger head)

/-- Begins a statement at a word where one begins: at the first word, at a
word that begins a statement within the statement, or at the action of a
trigger. -/
def beginAtWord (s : State) (t : Token) : State :=
  let statement := s.analysis.statement
  match statement.first? with
  | none => s.beginStatement t none
  | some first =>
    if s.analysis.restart then s.beginStatement t statement.trigger
    else if statement.startsAction t.text then
      let id := s.nextItem
      (s.addTrigger statement first).beginStatement t (some id)
    else s

/-- The state with a part added to the statement being read. -/
def addPart (s : State) (p : Part) : State :=
  { s with analysis := { s.analysis with statement := s.analysis.statement.add p } }

/-- Adds a token to the statement being read, and looks at it if it is a
word. -/
def readToken (env : Environment) (s : State) (t : Token) : State :=
  let spaced := s.analysis.spaced
  let s := { s with analysis := { s.analysis with spaced := false } }
  let s :=
    if t.kind = .word then
      let s := s.beginAtWord t
      let restart := Keyword.isIn t.text Keyword.restarts
      let s := { s with analysis := { s.analysis with restart } }
      s.lookAtWord env t spaced
    else s
  s.addPart ⟨t, spaced⟩

end State

end Parse

end AblOutline
