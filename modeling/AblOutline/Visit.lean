/-
A visit to the items of a parse: a beginning, the items in the order of
finding, an end.
-/
import AblOutline.ParsedFile
namespace AblOutline

/-- One call at a visitor. -/
inductive Visit where
  /-- The beginning, with the number of items to come. -/
  | start (count : Nat)
  | item (item : Item)
  | stop
deriving Repr, Inhabited

/-- The calls at a visitor to a parse, in order. -/
def ParsedFile.visits (p : ParsedFile) : List Visit :=
  .start p.items.size :: p.items.toList.map .item ++ [.stop]

/-- What a visitor calls content of that sort. -/
def Item.Content.visitName : Item.Content → String
  | .file _ => "file"
  | .editorSection _ _ => "preproc_block"
  | .procedure _ => "procedure"
  | .prototype _ => "prototype"
  | .implementation _ => "implementation"
  | .method _ => "method"
  | .label _ => "label"
  | .run _ => "run"
  | .trigger _ => "on_statement"
  | .call _ _ => "function_call"
  | .tableUse _ => "table_use"
  | .buffer _ _ => "buffer"
  | .definition _ => "define"
  | .name _ _ _ => "preproc_variable"
  | .nameUse _ => "preproc_variable_use"
  | .inclusion _ _ => "include_file"
  | .event => "event"
  | .word => "word"
  | .snippet => "snippet"

end AblOutline
