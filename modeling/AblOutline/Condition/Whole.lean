/-
Conditions that compare whole numbers, as arithmetic has it: the number that a sum of
whole numbers comes to, and how two numbers relate.
-/
import AblOutline.Condition.Grammar
namespace AblOutline.Condition

/-- Two whole numbers relate as the comparison says. No number begins with another. -/
def Comparison.relates : Comparison → Int → Int → Bool
  | .equal, a, b => a = b
  | .unequal, a, b => a ≠ b
  | .less, a, b => a < b
  | .greater, a, b => a > b
  | .atMost, a, b => a ≤ b
  | .atLeast, a, b => a ≥ b
  | .begins, _, _ => false

/-- 64 bits hold the number with its sign. -/
def InRange (n : Int) : Prop := -0x8000000000000000 ≤ n ∧ n < 0x8000000000000000

instance (n : Int) : Decidable (InRange n) :=
  inferInstanceAs (Decidable (-0x8000000000000000 ≤ n ∧ n < 0x8000000000000000))

/-- A whole number, when 64 bits hold it. -/
def inRange? (n : Int) : Option Int := if InRange n then some n else none

/-- The whole number that is written to base ten, or to base sixteen after `0x`, when 64
bits hold it. -/
def wholeLiteral? (written : String) : Option Int :=
  match written.toList with
  | '0' :: 'x' :: digits | '0' :: 'X' :: digits =>
    (Text.natural? 16 digits).bind (inRange? ·)
  | cs => (Text.natural? 10 cs).bind (inRange? ·)

/-- The whole number that a derivation comes to, when it has only whole numbers, signs,
sums, differences and parentheses, and no number on the way is out of range. -/
def Derivation.integer? {n : Nonterminal} : Derivation n → n.Fold Int (Option Int)
  | .or first more => first.integer?.bind more.integer?
  | .orEnd => some
  | .orNext _ _ _ _ => fun _ => none
  | .and first more => first.integer?.bind more.integer?
  | .andEnd => some
  | .andNext _ _ _ _ => fun _ => none
  | .deny _ _ _ => none
  | .affirm c => c.integer?
  | .single s => s.integer?
  | .compare _ _ _ _ _ => none
  | .sum first more => first.integer?.bind more.integer?
  | .sumEnd => some
  | .plus _ _ next more => fun left =>
    next.integer?.bind fun right => (inRange? (left + right)).bind more.integer?
  | .minus _ _ next more => fun left =>
    next.integer?.bind fun right => (inRange? (left - right)).bind more.integer?
  | .number written _ => wholeLiteral? written.text
  | .text _ _ => none
  | .group _ _ inner _ _ => inner.integer?
  | .negative _ _ operand => operand.integer?.bind fun a => inRange? (-a)
  | .constant _ _ _ => none
  | .defined _ _ _ _ _ _ _ _ => none

end AblOutline.Condition
