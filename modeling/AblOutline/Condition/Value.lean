/-
Values of conditions, and what conditions do with them. Whole numbers have 64
bits; a sum of two wraps around. Any other number is a double. Numbers are
compared as doubles, texts without regard to case.
-/
import AblOutline.Condition.Expression
import AblOutline.Text.Case
import AblOutline.Text.Integer
namespace AblOutline.Condition

/-- A value of a condition. -/
inductive Value where
  | whole (n : Int64)
  | decimal (x : Float)
  | text (s : String)
  | truth (b : Bool)
deriving Inhabited

namespace Value

/-- The value taken as a truth: a number holds unless it is zero, a text is
no truth. -/
def truth? : Value → Option Bool
  | truth b => some b
  | whole n => some (n != 0)
  | decimal x => some (x != 0)
  | text _ => none

/-- The value taken as a double. -/
def number? : Value → Option Float
  | whole n => some (Float.ofInt n.toInt)
  | decimal x => some x
  | text _ | truth _ => none

-- ============================================================= literals

/-- A whole number, when 64 bits hold it. -/
def ofNat? (n : Nat) : Option Value :=
  if n < 0x8000000000000000 then some (whole (Int64.ofNat n)) else none

/-- The double nearest to the number that digits with a point write; the
point may be missing. -/
def decimal? (cs : List Char) : Option Value :=
  match Text.cutFirst? '.' cs with
  | none => (Text.natural? 10 cs).map fun n => decimal (Float.ofScientific n false 0)
  | some (before, after) =>
    (Text.natural? 10 (before ++ after)).map fun n =>
      decimal (Float.ofScientific n true after.length)

/-- The value of a number as it is written: to base sixteen after `0x`, else
whole when it has no point and fits, else a double. Texts of number tokens are
read, and no others: digits with one point at most, and no sign, exponent or
name of an infinity. -/
def ofNumber? (written : String) : Option Value :=
  match written.toList with
  | '0' :: 'x' :: digits | '0' :: 'X' :: digits => (Text.natural? 16 digits).bind ofNat?
  | cs =>
    match (Text.natural? 10 cs).bind ofNat? with
    | some v => some v
    | none => decimal? cs

/-- The characters that the inside of a string stands for: a tilde gives the
character after it, a doubled quote gives one. -/
def unescape (quote : Char) : List Char → List Char
  | '~' :: c :: rest => c :: unescape quote rest
  | ['~'] => []
  | c :: d :: rest =>
    if c = quote ∧ d = quote then quote :: unescape quote rest
    else c :: unescape quote (d :: rest)
  | [c] => [c]
  | [] => []

/-- What a string stands for, given with its quotes. -/
def ofLiteral (literal : String) : String :=
  let cs := literal.toList
  String.ofList (unescape (cs.head?.getD '"') (Token.stripQuotes cs))

-- ================================================================= sums

/-- The sum of two numbers, or two texts joined. -/
def add? : Value → Value → Option Value
  | text a, text b => some (text (a ++ b))
  | whole a, whole b => some (whole (a + b))
  | a, b => do
    let x ← a.number?
    let y ← b.number?
    some (decimal (x + y))

/-- The difference of two numbers. -/
def subtract? : Value → Value → Option Value
  | whole a, whole b => some (whole (a - b))
  | a, b => do
    let x ← a.number?
    let y ← b.number?
    some (decimal (x - y))

/-- The number with the other sign. -/
def negative? : Value → Option Value
  | whole n => some (whole (-n))
  | decimal x => some (decimal (-x))
  | text _ | truth _ => none

-- ========================================================== comparisons

/-- The order of two doubles; a NaN has none. -/
def orderFloats? (x y : Float) : Option Ordering :=
  if x < y then some .lt
  else if x == y then some .eq
  else if x > y then some .gt
  else none

/-- The order of two texts, by code point. -/
def orderTexts (a b : String) : Ordering :=
  if a < b then .lt else if a = b then .eq else .gt

/-- The order of two values. Two texts have one, and two truths, and two
numbers. -/
def order? : Value → Value → Option Ordering
  | text a, text b => some (orderTexts (Text.lowercase a) (Text.lowercase b))
  | truth a, truth b => some (compare a b)
  | a, b => do
    let x ← a.number?
    let y ← b.number?
    orderFloats? x y

/-- Values in that order satisfy the comparison; `BEGINS` is none. -/
def accepts? : Comparison → Ordering → Option Bool
  | .equal, o => some (o == .eq)
  | .unequal, o => some (o != .eq)
  | .less, o => some (o == .lt)
  | .greater, o => some (o == .gt)
  | .atMost, o => some (o != .gt)
  | .atLeast, o => some (o != .lt)
  | .begins, _ => none

/-- The outcome of a comparison. -/
def compare? : Comparison → Value → Value → Option Bool
  | .begins, text a, text b =>
    some ((Text.lowercase b).toList.isPrefixOf (Text.lowercase a).toList)
  | how, a, b => (order? a b).bind (accepts? how)

end Value

end AblOutline.Condition
