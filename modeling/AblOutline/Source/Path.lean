/-
File paths as texts. Two texts that name the same parts in the same order are
the same path, however many slashes part them; a path keeps its text, and
paths are put in order part by part.
-/
import AblOutline.Text.Split
namespace AblOutline.Path

/-- One part of a path. -/
inductive Part where
  | root
  /-- A dot that begins a relative path; a dot anywhere else says nothing. -/
  | here
  | up
  | name (text : String)
deriving DecidableEq, Repr, Inhabited

/-- The part that a piece between slashes names, if it says anything. -/
def partOf? (piece : List Char) : Option Part :=
  if piece = [] ∨ piece = ['.'] then none
  else if piece = ['.', '.'] then some .up
  else some (.name (String.ofList piece))

/-- What a path begins with, before its first piece that says anything, and
the characters after that. -/
def headOf (path : List Char) : List Char × List Char :=
  match path with
  | '/' :: rest => (['/'], rest)
  | ['.'] => (['.'], [])
  | '.' :: '/' :: rest => (['.'], '/' :: rest)
  | _ => ([], path)

/-- The part that the beginning of a path stands for. -/
def headPart (head : List Char) : List Part :=
  match head with
  | ['/'] => [.root]
  | ['.'] => [.here]
  | _ => []

/-- The parts of a path. -/
def parts (path : String) : List Part :=
  let (head, body) := headOf path.toList
  headPart head ++ (Text.piecesOf '/' body).filterMap partOf?

/-- The texts name the same path. -/
def same (a b : String) : Bool := parts a == parts b

@[simp] theorem same_refl (a : String) : same a a = true := by simp [same]

theorem same_comm (a b : String) : same a b = same b a := BEq.comm

/-- The path begins at the root of the file system. -/
def isAbsolute (path : String) : Bool := path.toList.head? == some '/'

/-- The last part, where it is a name. -/
def fileName? (path : String) : Option String :=
  match (parts path).getLast? with
  | some (.name text) => some text
  | _ => none

/-- The pieces, last first, without those that say nothing at the end. -/
def dropIdle (pieces : List (List Char)) : List (List Char) :=
  pieces.dropWhile fun piece => (partOf? piece).isNone

/-- The path without its last part; the root and the empty path have none. -/
def parent? (path : String) : Option String :=
  let (head, body) := headOf path.toList
  match dropIdle (Text.piecesOf '/' body).reverse with
  | _ :: before =>
    let kept := (dropIdle before).reverse
    some (String.ofList (head ++ ['/'].intercalate kept))
  | [] => if head = ['.'] then some "" else none

/-- The path of `relative` seen from `directory`. -/
def join (directory relative : String) : String :=
  if isAbsolute relative ∨ directory = "" then relative
  else if directory.toList.getLast? = some '/' then directory ++ relative
  else directory ++ "/" ++ relative

-- ================================================================ order

/-- Rank of the sorts of parts. -/
def Part.rank : Part → Nat
  | .root => 0
  | .here => 1
  | .up => 2
  | .name _ => 3

/-- The part comes before another, or is equal to it. -/
def Part.atMost : Part → Part → Bool
  | .name a, .name b => decide (a ≤ b)
  | a, b => decide (a.rank ≤ b.rank)

/-- The parts come before others, or are equal to them. -/
def partsAtMost : List Part → List Part → Bool
  | [], _ => true
  | _ :: _, [] => false
  | a :: as, b :: bs => if a = b then partsAtMost as bs else a.atMost b

/-- The path comes before another, or is equal to it. -/
def atMost (a b : String) : Bool := partsAtMost (parts a) (parts b)

end AblOutline.Path
