/-
Reports of a parse as plain text, one line for each thing reported:

    items:
       0 file                 main.p                   line 1..9
       1 procedure            load                     line 2..4   in 0
    lines:
        1  file > procedure
    errors:
    main.p:5: END found with no block to close

Lines and columns count from one here. Texts are brought to the width of their
column by blanks; a text that is wider than its column stays whole. Width counts
characters.
-/
import AblOutline.ParsedFile
import AblOutline.Text.Quoted
namespace AblOutline.Text

/-- As many blanks as bring `s` to a width. -/
def fill (width : Nat) (s : String) : String :=
  String.ofList (List.replicate (width - s.length) ' ')

/-- `s` at the left of a column. -/
def atLeft (width : Nat) (s : String) : String := s ++ fill width s

/-- `s` at the right of a column. -/
def atRight (width : Nat) (s : String) : String := fill width s ++ s

end AblOutline.Text

namespace AblOutline.Report

/-- A text before what may be there, or nothing. -/
def noted {α : Type} [ToString α] (before : String) : Option α → String
  | some a => before ++ toString a
  | none => ""

/-- One line on an item: number, sort, name, lines, scope, and the number of
its file when that is an included one. -/
def item (i : Item) : String :=
  let name := if i.name = "" then "<root>" else i.name
  Text.atRight 4 (toString i.id) ++ " " ++ Text.atLeft 20 i.content.reportName ++ " "
    ++ Text.atLeft 24 name ++ " line " ++ toString (i.rootLine + 1)
    ++ noted ".." (i.endLine.map (· + 1)) ++ noted "   in " i.scope
    ++ noted "   from include " (if i.owner = 0 then none else some i.owner) ++ "\n"

/-- One line on the scopes open on a line, the outermost first. -/
def line (index : Nat) (l : LineState) : String :=
  Text.atRight 5 (toString (index + 1)) ++ "  "
    ++ " > ".intercalate (l.frames.map (·.kind.label))
    ++ (if l.inFalseBranch then "  (inactive)" else "") ++ "\n"

/-- One line on a token: place, kind, text, and the number of its file when
that is an included one. -/
def token (t : Token) : String :=
  toString t.lineNumber ++ ":" ++ toString (t.start.column + 1) ++ " " ++ t.kind.name ++ " "
    ++ Text.quoted t.text ++ noted " @" (if t.owner = 0 then none else some t.owner) ++ "\n"

/-- The report on the items of a parse. -/
def items (p : ParsedFile) : String := String.join (p.items.toList.map item)

/-- The report on the lines of a parse. -/
def lines (p : ParsedFile) : String := String.join (p.lines.mapIdx line)

/-- The report on the faults in the structure. -/
def errors (p : ParsedFile) : String := String.join (p.errors.map fun e => e.report ++ "\n")

/-- The report on tokens. -/
def tokens (ts : List Token) : String := String.join (ts.map token)

/-- The whole report on a parse. -/
def full (p : ParsedFile) : String :=
  p.path.elim "" (fun path => "file: " ++ path ++ "\n")
    ++ "items:\n" ++ items p ++ "lines:\n" ++ lines p ++ "errors:\n" ++ errors p

end AblOutline.Report
