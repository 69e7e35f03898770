/-
What stands between braces. A reference, `{&name}`, `{1}` or `{*}`, stands for
the value of the name it holds. An include directive, `{file.i &mode="fast" 42}`,
holds a file, then named and positional arguments in any order. White space
separates them, but not between quotes or inside braces.
-/
import AblOutline.Text.Blank
import AblOutline.Text.Case
import AblOutline.Text.Split
import AblOutline.Token.Basic
namespace AblOutline.Preprocess

-- =========================================================== references

/-- What stands between the braces of `text`; either brace may be missing. -/
def betweenBraces (text : List Char) : List Char :=
  Text.dropEnd '\x7d' (Text.dropStart '\x7b' text)

/-- The name that the reference `text` holds: `name` of `{&name}`, `1` of
`{1}`. All named arguments together have the name `&*`. -/
def referenceName (text : String) : String :=
  let inner := Text.trimChars (betweenBraces text.toList)
  if inner = ['&', '*'] then "&*"
  else String.ofList (Text.trimChars (Text.dropStart '&' inner))

-- ================================================================ words

/-- A word of an include directive and the text that follows it. -/
structure Piece where
  text : List Char
  after : List Char
deriving DecidableEq, Repr

/-- The words of `cs`, read inside a word that began with `current` (last
character first). `quote` is the quote that is open, `depth` the number of
open braces. -/
def piecesFrom (current : List Char) (quote : Option Char) (depth : Nat) :
    List Char → List Piece
  | [] => if current.isEmpty then [] else [⟨current.reverse, []⟩]
  | c :: rest =>
    match quote with
    | some q => piecesFrom (c :: current) (if c = q then none else some q) depth rest
    | none =>
      if Text.isBlank c ∧ depth = 0 then
        if current.isEmpty then piecesFrom [] none 0 rest
        else ⟨current.reverse, c :: rest⟩ :: piecesFrom [] none 0 rest
      else if c = '"' ∨ c = '\x27' then piecesFrom (c :: current) (some c) depth rest
      else if c = '\x7b' then piecesFrom (c :: current) none (depth + 1) rest
      else if c = '\x7d' then piecesFrom (c :: current) none (depth - 1) rest
      else piecesFrom (c :: current) none depth rest

/-- The words of `cs`. -/
def words (cs : List Char) : List Piece := piecesFrom [] none 0 cs

-- ============================================================ arguments

/-- One argument of an include directive. -/
inductive Argument where
  | named (name value : List Char)
  | positional (value : List Char)
deriving DecidableEq, Repr

/-- What the words read so far leave open. -/
inductive Pending where
  | nothing
  /-- A name whose equals sign has not come yet. -/
  | sign (name : List Char)
  /-- A name with its equals sign, whose value has not come yet. -/
  | value (name : List Char)
deriving DecidableEq, Repr

namespace Pending

/-- The arguments that a word completes when nothing is open, and what it
leaves open. -/
def start : List Char → List Argument × Pending
  | '&' :: word =>
    match Text.cutFirst? '=' word with
    | some (name, []) => ([], .value name)
    | some (name, given) => ([.named name given], .nothing)
    | none => ([], .sign word)
  | word => ([.positional word], .nothing)

/-- The arguments that the next word completes, and what it leaves open. -/
def take : Pending → List Char → List Argument × Pending
  | .nothing, word => start word
  | .value name, word => ([.named name word], .nothing)
  | .sign name, ['='] => ([], .value name)
  | .sign name, '=' :: given => ([.named name given], .nothing)
  | .sign name, word => let (done, left) := start word; (.named name [] :: done, left)

/-- The arguments that the end of the words completes. -/
def close : Pending → List Argument
  | .nothing => []
  | .sign name | .value name => [.named name []]

end Pending

/-- The arguments that words write after what is already open. A name and its
value may be written as one word or apart, with the equals sign on either
side. -/
def argumentsFrom (pending : Pending) : List (List Char) → List Argument
  | [] => pending.close
  | word :: rest =>
    let (done, pending) := pending.take word
    done ++ argumentsFrom pending rest

/-- The arguments that the words write. -/
def argumentsOf (words : List (List Char)) : List Argument := argumentsFrom .nothing words

-- ================================================================= call

/-- An include directive taken apart. -/
structure IncludeCall where
  file : String := ""
  /-- Names, in small letters, and values of the named arguments, in order. -/
  named : List (String × String) := []
  positional : List String := []
  /-- All that follows the file name, as written. -/
  rawArguments : String := ""
deriving DecidableEq, Repr, Inhabited

namespace IncludeCall

/-- A word as a value: without its quotes. -/
def valueOf (word : List Char) : String := String.ofList (Token.stripQuotes word)

/-- Name and value of a named argument. -/
def named? : Argument → Option (String × String)
  | .named name value => some (Text.lower (String.ofList name), valueOf value)
  | .positional _ => none

/-- The value of a positional argument. -/
def positional? : Argument → Option String
  | .named _ _ => none
  | .positional value => some (valueOf value)

/-- The parts of the include directive `text`; nothing when it names no
file. -/
def parse? (text : String) : Option IncludeCall :=
  match words (betweenBraces text.toList) with
  | [] => none
  | file :: rest =>
    let arguments := argumentsOf (rest.map (·.text))
    some {
      file := valueOf file.text
      named := arguments.filterMap named?
      positional := arguments.filterMap positional?
      rawArguments := String.ofList (Text.trimChars file.after) }

/-- The value of the first argument of that name, whatever its case. -/
def argument? (call : IncludeCall) (name : String) : Option String :=
  call.named.lookup (Text.lower name)

/-- The positional argument of that number; the first has number one. -/
def position? (call : IncludeCall) (number : Nat) : Option String :=
  if number = 0 then none else call.positional[number - 1]?

/-- The named arguments written out again, each value between double
quotes. -/
def namedText (call : IncludeCall) : String :=
  " ".intercalate (call.named.map fun (name, value) => "&" ++ name ++ "=\"" ++ value ++ "\"")

end IncludeCall

end AblOutline.Preprocess
