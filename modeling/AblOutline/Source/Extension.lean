/-
File name extensions, without their dot: how a path shows one, and those of ABL
sources and of schema dumps.
-/
import AblOutline.Source.Path
import AblOutline.Text.Case
namespace AblOutline

/-- What follows the last dot of the file name; a dot that begins the name
does not count. -/
def Path.extension? (path : String) : Option String := do
  let name ← fileName? path
  let (before, after) ← Text.splitLast? '.' name
  if before = "" then none else some after

namespace Extension

/-- Extensions of ABL sources: procedures, windows, includes, classes and
triggers. -/
def sources : List String := ["p", "w", "i", "cls", "t"]

/-- Extension of schema dumps. -/
def schemaDump : String := "dbdump"

/-- The extension, whatever its case, is one of ABL sources. -/
def isSource (extension : String) : Bool := sources.any (Text.same · extension)

end Extension

end AblOutline
