/-
The outline of a source. Routines, triggers and editor sections hold what was
found in them; the declarations that one may want to go to are leaves. An item
comes before those found in its scope, so the outline is put together from the
last item to the first.
-/
import AblOutline.ParsedFile
namespace AblOutline

/-- What an entry of an outline stands for. -/
inductive OutlineKind where
  | editorSection
  | procedure
  /-- A function whose body is not in the file. -/
  | prototype
  | function
  | method
  | trigger
  | tempTable
  | buffer
  | dataset
  | run
  | inclusion
deriving DecidableEq, Repr, Inhabited

/-- The name of the kind in records. -/
def OutlineKind.name : OutlineKind → String
  | .editorSection => "Section"
  | .procedure => "Procedure"
  | .prototype => "Prototype"
  | .function => "Function"
  | .method => "Method"
  | .trigger => "Trigger"
  | .tempTable => "TempTable"
  | .buffer => "Buffer"
  | .dataset => "Dataset"
  | .run => "Run"
  | .inclusion => "Include"

/-- The kind of entry that an item has in the outline, if it has one. -/
def Item.outlineKind? (i : Item) : Option OutlineKind :=
  match i.content with
  | .editorSection _ _ => some .editorSection
  | .procedure _ => some .procedure
  | .prototype f => if f.implementation.isNone then some .prototype else none
  | .implementation _ => some .function
  | .method _ => some .method
  | .trigger _ => some .trigger
  | .buffer _ _ => some .buffer
  | .run r => if r.dynamic then none else some .run
  | .inclusion _ _ => some .inclusion
  | .definition d =>
    match d.type with
    | .tempTable | .workTable => some .tempTable
    | .dataset => some .dataset
    | _ => none
  | _ => none

/-- An entry of an outline, without what it holds. -/
structure OutlineEntry where
  name : String
  kind : OutlineKind
  item : ItemId
  /-- The line of its declaration in the file being read. -/
  line : Nat
  endLine : Option Nat
  /-- It is declared in an included file. -/
  fromInclude : Bool
deriving DecidableEq, Repr, Inhabited

/-- The entry of an item in the outline, if it has one. -/
def Item.outlineEntry? (i : Item) : Option OutlineEntry :=
  i.outlineKind?.map fun kind =>
    { name := i.name, kind, item := i.id, line := i.rootLine, endLine := i.endLine
      fromInclude := i.owner != 0 }

/-- An entry of an outline and the entries it holds. -/
inductive Outline where
  | node (entry : OutlineEntry) (children : List Outline)
deriving Repr, Inhabited

namespace Outline

/-- The entry at the root. -/
def entry : Outline → OutlineEntry
  | node entry _ => entry

/-- What the entry at the root holds. -/
def children : Outline → List Outline
  | node _ children => children

mutual

/-- All entries, each before those that it holds. -/
def walk : Outline → List OutlineEntry
  | node entry children => entry :: walkAll children

/-- All entries of some outlines. -/
def walkAll : List Outline → List OutlineEntry
  | [] => []
  | o :: rest => walk o ++ walkAll rest

end

/-- The outlines of those of the children that have one. -/
def among (known : List (ItemId × Outline)) (children : List ItemId) : List Outline :=
  children.filterMap fun id => known.lookup id

/-- The outlines of those of the items that have one, by number; each item
comes before its children. -/
def ofItems : List Item → List (ItemId × Outline)
  | [] => []
  | i :: rest =>
    let below := ofItems rest
    match i.outlineEntry? with
    | none => below
    | some entry => (i.id, node entry (if i.isScope then among below i.children else [])) :: below

end Outline

/-- The outlines of what was found right in the file. -/
def ParsedFile.outline (p : ParsedFile) : List Outline :=
  match p.root? with
  | some root => Outline.among (Outline.ofItems p.items.toList) root.children
  | none => []

end AblOutline
