/-
The truth of a condition. A condition that cannot be read or evaluated counts
as true, so that unknown code is looked at and not hidden.
-/
import AblOutline.Condition.Value
namespace AblOutline

/-- What conditions and references know of the machine. -/
structure Platform where
  opsys : String := "WIN32"
  windowSystem : String := "MS-WINDOWS"
  proversion : String := "12.2"
  batchMode : Bool := false
deriving DecidableEq, Repr, Inhabited

namespace Condition

/-- The value of a constant. -/
def Constant.value (platform : Platform) : Constant → Value
  | .truth b => .truth b
  | .proversion => .text platform.proversion
  | .opsys => .text platform.opsys
  | .windowSystem => .text platform.windowSystem
  | .batchMode => .truth platform.batchMode

/-- The value of a condition, where `defined` answers `DEFINED`. Both sides
of `AND` and `OR` are evaluated; the right one is taken as a truth only when
the left does not decide. -/
def Expression.eval? (platform : Platform) (defined : String → Int64) :
    Expression → Option Value
  | .number written => Value.ofNumber? written
  | .text literal => some (.text (Value.ofLiteral literal))
  | .constant c => some (c.value platform)
  | .defined name => some (.whole (defined name))
  | .negative e => (e.eval? platform defined).bind Value.negative?
  | .add l r => do
    let a ← l.eval? platform defined
    let b ← r.eval? platform defined
    Value.add? a b
  | .subtract l r => do
    let a ← l.eval? platform defined
    let b ← r.eval? platform defined
    Value.subtract? a b
  | .compare how l r => do
    let a ← l.eval? platform defined
    let b ← r.eval? platform defined
    (Value.compare? how a b).map .truth
  | .not e => do
    let a ← e.eval? platform defined
    let x ← a.truth?
    some (.truth !x)
  | .and l r => do
    let a ← l.eval? platform defined
    let b ← r.eval? platform defined
    let x ← a.truth?
    if x then (b.truth?).map .truth else some (.truth false)
  | .or l r => do
    let a ← l.eval? platform defined
    let b ← r.eval? platform defined
    let x ← a.truth?
    if x then some (.truth true) else (b.truth?).map .truth

/-- The truth of the condition that the tokens write, if it has one. -/
def truth? (platform : Platform) (defined : String → Int64) (ts : List Token) : Option Bool := do
  let e ← Expression.ofTokens? ts
  let v ← e.eval? platform defined
  v.truth?

/-- The condition that the tokens write holds, or has no truth. -/
def holds (platform : Platform) (defined : String → Int64) (ts : List Token) : Bool :=
  (truth? platform defined ts).getD true

end Condition

end AblOutline
