/-
Looking for included files in the directories of a list, in its order, and
then in the directory of the file that includes them. Either slash may be
written in a directive.
-/
import AblOutline.Source.FileStore
namespace AblOutline

namespace Resolver

/-- The name of a file as a path: without white space around it, and with
slashes of one sort. -/
def asPath (name : String) : String :=
  String.ofList ((Text.trimChars name.toList).map fun c => if c = '\\' then '/' else c)

/-- The paths where a file may be, in the order of looking. -/
def places (propath : List String) (including : Option String) (path : String) : List String :=
  (propath ++ (including.bind Path.parent?).toList).map (Path.join · path)

/-- Files of a store, looked for in the directories of `propath`. -/
def ofPropath (store : FileStore) (propath : List String) : Resolver where
  resolve name including :=
    let path := asPath name
    if path = "" then Option.none
    else if Path.isAbsolute path then (if store.isFile path then some path else Option.none)
    else (places propath including path).find? store.isFile
  load path := store.text path

end Resolver

end AblOutline
