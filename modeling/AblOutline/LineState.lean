/-
What holds at the end of a line: the scopes that are open there.
-/
import AblOutline.Nesting
namespace AblOutline

/-- What holds at the end of a line. -/
structure LineState where
  /-- The open scopes, the outermost first. -/
  frames : List Frame
  /-- Some open `&IF` is on a branch that is not taken. -/
  inFalseBranch : Bool
deriving DecidableEq, Repr, Inhabited

namespace LineState

/-- Nothing is open. -/
def blank : LineState := ⟨[], false⟩

/-- The line where those scopes are open. -/
def ofNesting (n : Nesting) : LineState := ⟨n.frames, n.inFalseBranch⟩

/-- The number of open blocks and routines, by which a line is indented. -/
def depth (l : LineState) : Nat :=
  l.frames.countP fun f => !([.file, .conditional, .suspended].contains f.kind)

/-- The number of open routines and editor sections. -/
def outlineDepth (l : LineState) : Nat :=
  l.frames.countP fun f => !([.file, .conditional, .block].contains f.kind)

/-- The innermost item that owns the line. -/
def owner? (l : LineState) : Option ItemId := l.frames.reverse.findSome? (·.item)

/-- A state for every line: one without a record has that of the next line
with one. -/
def fill : List (Option LineState) → List LineState
  | [] => []
  | some l :: rest => l :: fill rest
  | none :: rest =>
    let below := fill rest
    below.head?.getD blank :: below

@[simp] theorem length_fill (ls : List (Option LineState)) : (fill ls).length = ls.length := by
  induction ls with
  | nil => rfl
  | cons l rest ih => cases l <;> simp [fill, ih]

end LineState

end AblOutline
