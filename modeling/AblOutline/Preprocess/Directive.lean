/-
Preprocessor directives, told by their word. The word of a definition may be
shortened, as keywords may.
-/
import AblOutline.Text.Case
namespace AblOutline.Preprocess

/-- A preprocessor directive. -/
inductive Directive where
  | ifThen
  | elseIf
  | otherwise
  | endIf
  | thenPart
  | globalDefine
  | scopedDefine
  | undefine
  | analyzeSuspend
  | analyzeResume
  | message
  | other
deriving DecidableEq, Repr, Inhabited

namespace Directive

/-- The directive of the given word, which begins with `&`. -/
def ofWord (word : String) : Directive :=
  match Text.upper word with
  | "&IF" => .ifThen
  | "&ELSEIF" => .elseIf
  | "&ELSE" => .otherwise
  | "&ENDIF" => .endIf
  | "&THEN" => .thenPart
  | "&ANALYZE-SUSPEND" => .analyzeSuspend
  | "&ANALYZE-RESUME" => .analyzeResume
  | "&MESSAGE" => .message
  | _ =>
    if Text.abbreviates word "&GLOBAL-DEFINE" 5 then .globalDefine
    else if Text.abbreviates word "&SCOPED-DEFINE" 5 then .scopedDefine
    else if Text.abbreviates word "&UNDEFINE" 6 then .undefine
    else .other

/-- The operands of the directive reach to the end of its line. -/
def takesLine : Directive → Bool
  | .globalDefine | .scopedDefine | .undefine | .analyzeSuspend | .analyzeResume | .message => true
  | _ => false

/-- The name of the directive in reports. -/
def name : Directive → String
  | .ifThen => "If"
  | .elseIf => "ElseIf"
  | .otherwise => "Else"
  | .endIf => "EndIf"
  | .thenPart => "Then"
  | .globalDefine => "GlobalDefine"
  | .scopedDefine => "ScopedDefine"
  | .undefine => "Undefine"
  | .analyzeSuspend => "AnalyzeSuspend"
  | .analyzeResume => "AnalyzeResume"
  | .message => "Message"
  | .other => "Other"

end Directive

end AblOutline.Preprocess
