/-
What a `DEFINE` statement defines, told by the word after its modifiers.
-/
import AblOutline.Text.Case
namespace AblOutline

/-- What a `DEFINE` statement defines. -/
inductive DefineType where
  | variable
  | parameter
  | buffer
  | tempTable
  | workTable
  | stream
  | frame
  | query
  | dataset
  | dataSource
  | event
  | property
  | button
  | browse
  | image
  | menu
  | subMenu
  | rectangle
deriving DecidableEq, Repr, Inhabited

namespace DefineType

/-- What the word asks to define, if it is a type word. -/
def ofWord? (word : String) : Option DefineType :=
  match Text.upper word with
  | "BUFFER" => some .buffer
  | "TEMP-TABLE" => some .tempTable
  | "WORK-TABLE" | "WORKFILE" => some .workTable
  | "STREAM" => some .stream
  | "FRAME" => some .frame
  | "QUERY" => some .query
  | "DATASET" => some .dataset
  | "DATA-SOURCE" => some .dataSource
  | "EVENT" => some .event
  | "PROPERTY" => some .property
  | "BUTTON" => some .button
  | "BROWSE" => some .browse
  | "IMAGE" => some .image
  | "MENU" => some .menu
  | "SUB-MENU" => some .subMenu
  | "RECTANGLE" => some .rectangle
  | _ =>
    if Text.abbreviates word "VARIABLE" 3 then some .variable
    else if Text.abbreviates word "PARAMETER" 5 then some .parameter
    else none

/-- The full type word. -/
def keyword : DefineType → String
  | .variable => "VARIABLE"
  | .parameter => "PARAMETER"
  | .buffer => "BUFFER"
  | .tempTable => "TEMP-TABLE"
  | .workTable => "WORK-TABLE"
  | .stream => "STREAM"
  | .frame => "FRAME"
  | .query => "QUERY"
  | .dataset => "DATASET"
  | .dataSource => "DATA-SOURCE"
  | .event => "EVENT"
  | .property => "PROPERTY"
  | .button => "BUTTON"
  | .browse => "BROWSE"
  | .image => "IMAGE"
  | .menu => "MENU"
  | .subMenu => "SUB-MENU"
  | .rectangle => "RECTANGLE"

/-- The name of the type in reports. -/
def name : DefineType → String
  | .variable => "Variable"
  | .parameter => "Parameter"
  | .buffer => "Buffer"
  | .tempTable => "TempTable"
  | .workTable => "WorkTable"
  | .stream => "Stream"
  | .frame => "Frame"
  | .query => "Query"
  | .dataset => "Dataset"
  | .dataSource => "DataSource"
  | .event => "Event"
  | .property => "Property"
  | .button => "Button"
  | .browse => "Browse"
  | .image => "Image"
  | .menu => "Menu"
  | .subMenu => "SubMenu"
  | .rectangle => "Rectangle"

end DefineType

end AblOutline
