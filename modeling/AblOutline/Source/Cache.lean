/-
Tokens of included files, kept from one parse to the next. Included files
change much less than the file being edited. A path leaves the cache when it
is parsed as a file of its own, for then its text may have changed.
-/
import AblOutline.Source.Path
import AblOutline.Token.Basic
namespace AblOutline

/-- Tokens by path. -/
structure TokenCache where
  entries : List (String × List Token) := []
deriving Repr, Inhabited

namespace TokenCache

/-- The number of paths that have an entry. -/
def size (c : TokenCache) : Nat := c.entries.length

/-- The tokens kept for a path. -/
def get? (c : TokenCache) (path : String) : Option (List Token) :=
  (c.entries.find? fun e => Path.same e.1 path).map (·.2)

/-- Keeps tokens for a path that has none yet. -/
def insert (c : TokenCache) (path : String) (tokens : List Token) : TokenCache :=
  match c.get? path with
  | some _ => c
  | none => ⟨c.entries ++ [(path, tokens)]⟩

/-- Forgets a path. -/
def invalidate (c : TokenCache) (path : String) : TokenCache :=
  ⟨c.entries.filter fun e => !Path.same e.1 path⟩

-- ================================================================= laws

/-- What was kept first stays. -/
theorem get?_insert_of_some {c : TokenCache} {path : String} {kept : List Token}
    (h : c.get? path = some kept) (tokens : List Token) : c.insert path tokens = c := by
  simp [insert, h]

theorem get?_insert_of_none {c : TokenCache} {path : String} (h : c.get? path = none)
    (tokens : List Token) : (c.insert path tokens).get? path = some tokens := by
  have absent : c.entries.find? (fun e => Path.same e.1 path) = none := by simpa [get?] using h
  simp [insert, get?, List.find?_append, absent]

@[simp] theorem get?_invalidate (c : TokenCache) (path : String) :
    (c.invalidate path).get? path = none := by
  simp [get?, invalidate]

end TokenCache

end AblOutline
