/-
The include chain of a parse: the file being read and, in the order of their
opening, the files that include directives bring in. A file is known by its
number; every file but the first was included by one with a smaller number,
so the files form a tree with the file being read at its root.
-/
import AblOutline.Preprocess.Arguments
namespace AblOutline

/-- One file of an include chain. -/
structure ChainFile where
  /-- The name in the include directive; for the first file that of its
  path. -/
  name : String
  path : Option String
  /-- The include directive. -/
  trigger : Option Token
  /-- The number of the file that includes it. -/
  parent : Option Nat
  /-- The line of the file being read that all its tokens count for. -/
  rootLine : Nat
  arguments : Preprocess.IncludeCall := {}
deriving DecidableEq, Repr, Inhabited

/-- The files of a parse, by number. -/
structure IncludeChain where
  files : Array ChainFile
deriving DecidableEq, Repr, Inhabited

namespace IncludeChain

/-- The number of files. -/
def size (c : IncludeChain) : Nat := c.files.size

/-- The file of that number. -/
def get? (c : IncludeChain) (owner : Nat) : Option ChainFile := c.files[owner]?

/-- The path of the file of that number. -/
def path? (c : IncludeChain) (owner : Nat) : Option String := (c.get? owner).bind (·.path)

/-- The chain with one more file. -/
def push (c : IncludeChain) (file : ChainFile) : IncludeChain := ⟨c.files.push file⟩

/-- The line of the file being read that a token counts for. -/
def rootLine (c : IncludeChain) (t : Token) : Nat :=
  if t.owner = 0 then t.start.line else ((c.get? t.owner).map (·.rootLine)).getD t.start.line

/-- The file that includes file `owner`, by number. -/
def parent? (c : IncludeChain) (owner : Nat) : Option Nat :=
  ((c.get? owner).bind (·.parent)).filter (· < owner)

theorem parent?_lt {c : IncludeChain} {owner parent : Nat} (h : c.parent? owner = some parent) :
    parent < owner :=
  of_decide_eq_true (Option.filter_eq_some_iff.1 h).2

/-- File `owner`, the file that includes it, and so on to the file being
read. -/
def lineage (c : IncludeChain) (owner : Nat) : List Nat :=
  match h : c.parent? owner with
  | some parent =>
    have := parent?_lt h
    owner :: c.lineage parent
  | none => [owner]
termination_by owner

/-- A file stands before all that include it. -/
theorem le_of_mem_lineage {c : IncludeChain} {owner o : Nat} (h : o ∈ c.lineage owner) :
    o ≤ owner := by
  induction owner using Nat.strongRecOn with
  | ind owner ih =>
    rw [lineage] at h
    split at h
    · rename_i parent hp
      rcases List.mem_cons.1 h with rfl | h
      · exact Nat.le_refl _
      · exact Nat.le_trans (ih parent (parent?_lt hp) h) (Nat.le_of_lt (parent?_lt hp))
    · simp at h
      omega

/-- The value of the named argument that file `owner` sees: its own comes
before those of the files that include it. -/
def argument? (c : IncludeChain) (name : String) (owner : Nat) : Option String :=
  (c.lineage owner).findSome? fun o => (c.get? o).bind (·.arguments.argument? name)

end IncludeChain

end AblOutline
