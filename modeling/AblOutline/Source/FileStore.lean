/-
Files and directories as a store holds them, and how a path leads through
them. Each part of a path is looked up in the directory reached so far: a dot
and an empty part stay there, two dots go up, a name goes down. A part after a
file leads nowhere, so neither does a slash after a file name. Absolute paths,
and those that go up beyond the store, reach directories of which nothing is
known. Names and whole paths have a greatest length, in bytes.
-/
import AblOutline.Source.Path
import AblOutline.Source.Resolver
import AblOutline.Text.Blank
import AblOutline.Text.Utf8
namespace AblOutline

/-- What a name in a store stands for. -/
inductive FileNode where
  | file (bytes : List UInt8)
  | directory
deriving DecidableEq, Repr, Inhabited

/-- Files and directories by the names that lead to them. -/
structure FileStore where
  entries : List (List String × FileNode) := []
deriving Repr, Inhabited

namespace FileStore

/-- What the names lead to; no name leads to the store itself. -/
def node? (s : FileStore) (names : List String) : Option FileNode :=
  if names = [] then some .directory else s.entries.lookup names

-- =============================================================== looking

/-- The most bytes that a name may have. -/
def maxNameBytes : Nat := 255

/-- The most bytes that a path may have. -/
def maxPathBytes : Nat := 4095

/-- Where a path has led so far. -/
inductive Place where
  | inside (names : List String)
  /-- A directory that the store is in, or its parent, and so on. -/
  | above
deriving DecidableEq, Repr, Inhabited

/-- What is at a place. -/
def nodeAt? (s : FileStore) : Place → Option FileNode
  | .inside names => s.node? names
  | .above => some .directory

/-- The place that two dots lead to. -/
def Place.up : Place → Place
  | .inside names => if names = [] then .above else .inside names.dropLast
  | .above => .above

/-- The place of what has the name in the directory at a place, if the store
knows it. -/
def child? (s : FileStore) (place : Place) (name : String) : Option Place :=
  match place with
  | .inside names =>
    let below := names ++ [name]
    if (s.node? below).isSome then some (.inside below) else none
  | .above => none

/-- The place that one more piece of a path leads to. -/
def follow (s : FileStore) (place : Place) (piece : List Char) : Except ReadError Place :=
  match s.nodeAt? place with
  | some .directory =>
    match Path.partOf? piece with
    | some .up => .ok place.up
    | some (.name text) =>
      if maxNameBytes < text.utf8ByteSize then .error .nameTooLong
      else
        match s.child? place text with
        | some below => .ok below
        | none => .error .notFound
    | _ => .ok place
  | some (.file _) => .error .notDirectory
  | none => .error .notFound

/-- The place that a path leads to, if something is there. -/
def locate (s : FileStore) (path : String) : Except ReadError Place :=
  if path.toList.contains '\x00' then .error .invalidName
  else if maxPathBytes < path.utf8ByteSize then .error .nameTooLong
  else if path = "" then .error .notFound
  else
    let start := if Path.isAbsolute path then Place.above else .inside []
    (Text.piecesOf '/' path.toList).foldlM s.follow start

/-- The path leads to a file. -/
def isFile (s : FileStore) (path : String) : Bool :=
  match s.locate path with
  | .ok place => (s.nodeAt? place).any (· != .directory)
  | .error _ => false

/-- The bytes of the file at a path. -/
def bytes (s : FileStore) (path : String) : Except ReadError (List UInt8) :=
  match s.locate path with
  | .error e => .error e
  | .ok place =>
    match s.nodeAt? place with
    | some (.file bytes) => .ok bytes
    | some .directory => .error .isDirectory
    | none => .error .notFound

/-- The text of the file at a path. Bytes that write no character are
replaced. -/
def text (s : FileStore) (path : String) : Except ReadError String :=
  (s.bytes path).map Text.ofUtf8

/-- The names that lead on from `names` to `below`, if some do. -/
def below? : List String → List String → Option (List String)
  | [], below => some below
  | _ :: _, [] => none
  | a :: as, b :: bs => if a = b then below? as bs else none

/-- The paths of all files at or below a place, each written with the path that
leads there in front. -/
def filesBelow (s : FileStore) (path : String) : Place → List String
  | .inside names =>
    (s.entries.filter (·.2 != .directory)).filterMap fun (found, _) =>
      (below? names found).map (·.foldl Path.join path)
  | .above => []

/-- The paths of all files at or below a path, each written with that path in
front. -/
def walk (s : FileStore) (path : String) : Except ReadError (List String) :=
  (s.locate path).map (s.filesBelow path)

-- ============================================================== changing

/-- The names that one part of a path leads to, whatever is there. -/
def namesAfter (names : List String) : Path.Part → List String
  | .name text => names ++ [text]
  | .up => names.dropLast
  | _ => names

/-- Puts a node at the names. -/
def putNode (s : FileStore) (names : List String) (node : FileNode) : FileStore :=
  ⟨s.entries.filter (·.1 != names) ++ [(names, node)]⟩

/-- Makes every directory that the parts of a path lead through from `names`,
where there is none, even if the path goes up from it again. -/
def makeAlong (s : FileStore) (names : List String) : List Path.Part → FileStore
  | [] => s
  | part :: rest =>
    let here := namesAfter names part
    let s := if (s.node? here).isSome then s else s.putNode here .directory
    s.makeAlong here rest

/-- Makes a directory, and those on the way to it, where there are none. -/
def makeDirectory (s : FileStore) (path : String) : FileStore := s.makeAlong [] (Path.parts path)

/-- Writes a file, in a directory that is made if there is none. -/
def write (s : FileStore) (path : String) (bytes : List UInt8) : FileStore :=
  let parts := Path.parts path
  (s.makeAlong [] parts.dropLast).putNode (parts.foldl namesAfter []) (.file bytes)

end FileStore

end AblOutline
