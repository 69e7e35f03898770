/-
Parsing the files of a project over one cache of included files.
-/
import AblOutline.Parse.Run
import AblOutline.Schema.Dump
import AblOutline.Source.Extension
import AblOutline.Source.FileStore
namespace AblOutline

-- =============================================================== failures

/-- Why sources cannot be read. -/
inductive LoadError where
  /-- A file cannot be read. -/
  | read (path : String) (error : ReadError)
  /-- A directory cannot be looked through. -/
  | walk (path : String) (error : ReadError)
deriving DecidableEq, Repr, Inhabited

namespace LoadError

/-- The name of the error in records. -/
def name : LoadError → String
  | read _ _ => "Io"
  | walk _ _ => "Walk"

/-- The file or directory that the error is about. -/
def path : LoadError → String
  | read path _ | walk path _ => path

/-- What is said of the error. -/
def message : LoadError → String
  | read path error => "failed to read " ++ path ++ ": " ++ error.message
  | walk path error =>
    "failed to walk directory: IO error for operation on " ++ path ++ ": " ++ error.message

end LoadError

/-- A schema dump cannot be read. -/
structure DumpError where
  path : String
  error : ReadError
deriving DecidableEq, Repr, Inhabited

/-- What is said of the error. -/
def DumpError.message (e : DumpError) : String :=
  "failed to read schema dump " ++ e.path ++ ": " ++ e.error.message

/-- Reads the schema dump at a path. -/
def Schema.ofFile (store : FileStore) (path aliases : String) : Except DumpError Schema :=
  match store.text path with
  | .ok text => .ok (Schema.parse text aliases)
  | .error error => .error { path, error }

-- ================================================================ project

/-- An environment, and what parses in it share. -/
structure Project where
  environment : Environment
  cache : TokenCache := {}

namespace Project

/-- Parses a text in `steps` steps at most. -/
def parse? (steps : Nat) (p : Project) (text : String) (path : Option String) :
    Option (Parse.Result × Project) :=
  (AblOutline.parse? steps p.environment p.cache text path).map fun r =>
    (r, { p with cache := r.cache })

/-- Reads the file at a path and parses it in `steps` steps at most. -/
def parseFile? (steps : Nat) (p : Project) (path : String) :
    Option (Except LoadError Parse.Result × Project) :=
  match p.environment.resolver.load path with
  | .error error => some (.error (.read path error), p)
  | .ok text =>
    (p.parse? steps text (some path)).map fun (r, p) =>
      (.ok { r with asked := .load path :: r.asked }, p)

-- ============================================================ directories

/-- The path is that of an ABL source. -/
def isSource (path : String) : Bool := (Path.extension? path).any Extension.isSource

/-- The paths of the ABL sources at or below a path, in order. -/
def collect (store : FileStore) (path : String) : Except LoadError (List String) :=
  match store.walk path with
  | .error error => .error (.walk path error)
  | .ok paths => .ok ((paths.filter isSource).mergeSort Path.atMost)

/-- The parses of several files, in their order, and the failures. -/
structure Batch where
  results : List ParsedFile := []
  failures : List LoadError := []
deriving Repr, Inhabited

namespace Batch

/-- The batch with the outcome for an earlier file at its front. -/
def after (b : Batch) : Except LoadError Parse.Result → Batch
  | .ok r => { b with results := r.file :: b.results }
  | .error error => { b with failures := error :: b.failures }

/-- The number of faults in the structure of all files. -/
def errorCount (b : Batch) : Nat := b.results.foldr (·.errors.length + ·) 0

end Batch

/-- Reads and parses files one after the other, each in `steps` steps at
most. -/
def parseAll? (steps : Nat) (p : Project) : List String → Option (Batch × Project)
  | [] => some ({}, p)
  | path :: rest => do
    let (outcome, p) ← p.parseFile? steps path
    let (batch, p) ← p.parseAll? steps rest
    some (batch.after outcome, p)

end Project

end AblOutline
