/-
Links from a source to other files: from include directives, and from `RUN`
statements whose target may be a file. A link covers a place in the file that
was parsed; what was found in included files has no link.
-/
import AblOutline.ParsedFile
import AblOutline.Source.Resolver
namespace AblOutline

/-- A place in a source that leads to a file. -/
structure Link where
  span : Span
  target : String
  tooltip : String
deriving DecidableEq, Repr, Inhabited

namespace Link

/-- The link from a token. -/
def ofToken (t : Token) (target tooltip : String) : Link := ⟨t.span, target, tooltip⟩

/-- The name of the file that a `RUN` statement may name: one with a dot that
is run in no handle and is no expression. -/
def runName? (i : Item) : Option String :=
  match i.content with
  | .run r =>
    if !r.dynamic && r.inHandle.isNone && r.target.toList.contains '.' then some r.target
    else none
  | _ => none

/-- The link from an item. -/
def ofItem? (resolver : Resolver) (path : Option String) (i : Item) : Option Link :=
  match i.content with
  | .inclusion (some target) _ => some (ofToken i.token target "Open include file")
  | _ => do
    let name ← runName? i
    let target ← resolver.resolve name path
    some (ofToken i.token target "Open procedure")

/-- The items that stand in the file that was parsed. -/
def ownItems (p : ParsedFile) : List Item := p.items.toList.filter (·.owner == 0)

end Link

/-- The links of a source, in the order of its items. -/
def ParsedFile.links (p : ParsedFile) (resolver : Resolver) : List Link :=
  (Link.ownItems p).filterMap (Link.ofItem? resolver p.path)

/-- The questions that finding the links puts to the resolver. -/
def ParsedFile.linkQueries (p : ParsedFile) : List Query :=
  (Link.ownItems p).filterMap fun i => (Link.runName? i).map (.resolve · p.path)

end AblOutline
