/-
A session: files are edited, and parsed over one cache of included files. A
file that gets another text is parsed at once, as the file that is being
edited; so the cache hears of every change.
-/
import AblOutline.Project
namespace AblOutline

/-- The texts of files; of two texts for one path the first counts. -/
structure Texts where
  entries : List (String × String) := []
deriving Repr, Inhabited

namespace Texts

/-- The text of the file at a path. -/
def text? (t : Texts) (path : String) : Option String :=
  (t.entries.find? fun e => Path.same e.1 path).map (·.2)

/-- Gives the file at a path that text. -/
def write (t : Texts) (path text : String) : Texts := ⟨(path, text) :: t.entries⟩

/-- The resolver that reads these files; the path of a file is its name. -/
def resolver (t : Texts) : Resolver where
  resolve name _ := if (t.text? name).isSome then some name else none
  load path :=
    match t.text? path with
    | some text => .ok text
    | none => .error .missing

end Texts

/-- The files, and what parses share. -/
structure Session where
  options : Options := {}
  directory : Directory := .standard
  texts : Texts := {}
  cache : TokenCache := {}

/-- One thing that is done in a session. -/
inductive Turn where
  /-- A file gets a text and is parsed. -/
  | edit (path text : String)
  /-- A file is parsed as it is. -/
  | reread (path : String)
deriving DecidableEq, Repr, Inhabited

namespace Turn

/-- The path of the file that is parsed. -/
def path : Turn → String
  | edit path _ | reread path => path

/-- The files as they are when the parse begins. -/
def write (texts : Texts) : Turn → Texts
  | edit path text => texts.write path text
  | reread _ => texts

end Turn

namespace Session

/-- The project of the session, with the files as they are. -/
def project (s : Session) : Project where
  environment :=
    { options := s.options, directory := s.directory, resolver := s.texts.resolver }
  cache := s.cache

/-- The session when the parse of a turn begins. -/
def begun (s : Session) (t : Turn) : Session := { s with texts := t.write s.texts }

/-- Takes a turn, with a parse of `steps` steps at most. -/
def turn? (steps : Nat) (s : Session) (t : Turn) :
    Option (Except LoadError ParsedFile × Session) :=
  ((s.begun t).project.parseFile? steps t.path).map fun (outcome, p) =>
    (outcome.map (·.file), { s.begun t with cache := p.cache })

/-- What the parse of a turn comes to. -/
def outcome? (steps : Nat) (s : Session) (t : Turn) : Option (Except LoadError ParsedFile) :=
  (s.turn? steps t).map (·.1)

/-- The session with its files as they are and nothing cached. -/
def fresh (s : Session) : Session := { s with cache := {} }

end Session

end AblOutline
