/-
The result of a parse: what was found in a file, what holds on each of its
lines, what is wrong with its structure and which files it includes.
-/
import AblOutline.Item.Basic
import AblOutline.LineState
import AblOutline.StructureError
import AblOutline.Source.Chain
namespace AblOutline

/-- The result of a parse. -/
structure ParsedFile where
  path : Option String
  /-- The items in the order of finding; the first is the file. -/
  items : Array Item
  /-- What holds at the end of each line of the file. -/
  lines : List LineState
  errors : List StructureError
  chain : IncludeChain
  /-- The tokens with all values and included files put in, when they were
  asked for. -/
  tokens : Option (List Token)
  /-- The number of scopes that were open at the end, the file among them. -/
  finalDepth : Nat
deriving Repr, Inhabited

namespace ParsedFile

/-- The item of that number. -/
def item? (p : ParsedFile) (id : ItemId) : Option Item := p.items[id]?

/-- The item of the file. -/
def root? (p : ParsedFile) : Option Item := p.item? 0

/-- The items found in the scope of an item. -/
def children (p : ParsedFile) (id : ItemId) : List Item :=
  ((p.item? id).elim [] (·.children)).filterMap p.item?

/-- What holds at the end of that line. -/
def line? (p : ParsedFile) (line : Nat) : Option LineState := p.lines[line]?

/-- The innermost item that owns that line. -/
def scopeOfLine? (p : ParsedFile) (line : Nat) : Option Item :=
  ((p.line? line).bind (·.owner?)).bind p.item?

/-- Nothing is wrong with the structure. -/
def isSound (p : ParsedFile) : Bool := p.errors.isEmpty

/-- The items whose content has that name in reports. -/
def itemsOf (p : ParsedFile) (reportName : String) : List Item :=
  p.items.toList.filter (·.content.reportName == reportName)

end ParsedFile

end AblOutline
