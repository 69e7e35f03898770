/-
Faults in the structure of a source. They are found, not thrown: a parse
always goes on, and lists them with its result.
-/
import AblOutline.Token.Basic
namespace AblOutline

/-- What is wrong with the structure. -/
inductive StructureFault where
  /-- `END` with no block to close. -/
  | unexpectedEnd
  /-- `END` names another kind of block than it closes. -/
  | mismatchedEnd
  /-- A block is still open at the end. -/
  | missingEnd
  /-- A routine opens inside another one. -/
  | nestedRoutine
  /-- `&ELSE`, `&ELSEIF` or `&ENDIF` without `&IF`. -/
  | unexpectedDirective
  /-- An `&IF` is still open at the end. -/
  | missingEndIf
  /-- `&ANALYZE-RESUME` without `&ANALYZE-SUSPEND`. -/
  | unexpectedResume
  /-- An `&ANALYZE-SUSPEND` is still open at the end. -/
  | missingResume
deriving DecidableEq, Repr, Inhabited

namespace StructureFault

/-- All faults, blocks before directives. -/
def all : List StructureFault :=
  [.unexpectedEnd, .mismatchedEnd, .missingEnd, .nestedRoutine, .unexpectedDirective,
   .missingEndIf, .unexpectedResume, .missingResume]

/-- The name of the fault in records. -/
def name : StructureFault → String
  | .unexpectedEnd => "UnexpectedBlockEnd"
  | .mismatchedEnd => "MismatchedBlockEnd"
  | .missingEnd => "MissingBlockEnd"
  | .nestedRoutine => "NestedRoutine"
  | .unexpectedDirective => "UnexpectedPreprocDirective"
  | .missingEndIf => "MissingPreprocEndIf"
  | .unexpectedResume => "UnexpectedSuspendEnd"
  | .missingResume => "MissingSuspendEnd"

/-- The number by which the fault is known: 01 for blocks, 02 for
directives. -/
def code : StructureFault → String
  | .unexpectedEnd => "E0101"
  | .mismatchedEnd => "E0102"
  | .missingEnd => "E0103"
  | .nestedRoutine => "E0104"
  | .unexpectedDirective => "E0201"
  | .missingEndIf => "E0202"
  | .unexpectedResume => "E0203"
  | .missingResume => "E0204"

/-- What is said of the fault. -/
def description : StructureFault → String
  | .unexpectedEnd => "END found with no block to close"
  | .mismatchedEnd => "END does not match the kind of the block it closes"
  | .missingEnd => "block is never closed with END"
  | .nestedRoutine => "routine defined inside another routine"
  | .unexpectedDirective => "preprocessor directive without a matching &IF"
  | .missingEndIf => "&IF is never closed with &ENDIF"
  | .unexpectedResume => "&ANALYZE-RESUME without &ANALYZE-SUSPEND"
  | .missingResume => "&ANALYZE-SUSPEND is never closed with &ANALYZE-RESUME"

/-- The fault is about directives and not about blocks. -/
def isPreprocessor : StructureFault → Bool
  | .unexpectedEnd | .mismatchedEnd | .missingEnd | .nestedRoutine => false
  | .unexpectedDirective | .missingEndIf | .unexpectedResume | .missingResume => true

end StructureFault

/-- A fault and where it was found. -/
structure StructureError where
  fault : StructureFault
  /-- The token at fault; for a scope that is never closed, its opener. -/
  token : Token
  /-- Its line in the file being read. -/
  rootLine : Nat
  /-- The number of scopes that were open. -/
  depth : Nat
  /-- The path of the file that holds the token, when it has one. -/
  file : Option String
deriving DecidableEq, Repr, Inhabited

/-- The error on one line: file, line in that file and description. -/
def StructureError.report (e : StructureError) : String :=
  e.file.getD "<input>" ++ ":" ++ toString e.token.lineNumber ++ ": " ++ e.fault.description

end AblOutline
