/-
Where included files come from. A resolver maps the name written in an include
directive to a path, and a path to a text. It is asked through questions that
a parse records in order.
-/
import AblOutline.Source.Path
import AblOutline.Text.Case
namespace AblOutline

/-- Why a file cannot be read. -/
inductive ReadError where
  | notFound
  | isDirectory
  | notDirectory
  /-- The path holds a character that no name may hold. -/
  | invalidName
  /-- The path, or a name in it, has too many bytes. -/
  | nameTooLong
  | missing
deriving DecidableEq, Repr, Inhabited

/-- What is said of a file that cannot be read. -/
def ReadError.message : ReadError → String
  | .notFound => "No such file or directory (os error 2)"
  | .isDirectory => "Is a directory (os error 21)"
  | .notDirectory => "Not a directory (os error 20)"
  | .invalidName => "file name contained an unexpected NUL byte"
  | .nameTooLong => "File name too long (os error 36)"
  | .missing => "missing"

/-- A source of files. -/
structure Resolver where
  /-- The path of the file that a directive names, asked from the file whose
  path is given, when it has one. -/
  resolve : String → Option String → Option String
  /-- The text of the file at a path. -/
  load : String → Except ReadError String

/-- A question put to a resolver. -/
inductive Query where
  | resolve (name : String) (including : Option String)
  | load (path : String)
deriving DecidableEq, Repr, Inhabited

namespace Resolver

/-- Knows no file; include directives are left as they are. -/
def none : Resolver where
  resolve _ _ := Option.none
  load _ := .error .notFound

/-- Files held in memory: the path of a file is its name, with capital letters
made small where case is to be ignored. A file without a text is known but
cannot be read. -/
def ofFiles (files : List (String × Option String)) (ignoreCase : Bool) : Resolver where
  resolve name _ :=
    let path := if ignoreCase then Text.lower name else name
    if (files.lookup path).isSome then some path else Option.none
  load path :=
    match files.lookup path with
    | some (some text) => .ok text
    | _ => .error .missing

end Resolver

end AblOutline
