/-
The grammar of conditions, as derivations over the tokens that carry meaning:

  or          and {OR and}
  and         not {AND not}
  not         NOT not, or a comparison
  comparison  sum, or sum operator sum
  sum         operand {+ operand, or - operand}
  operand     number, string, constant, DEFINED ( word ), - operand, ( or )

What stands in braces is a nonterminal of its own, so that a derivation is a tree
with one constructor for each alternative. A derivation has the value that comes
of its parts from left to right.
-/
import AblOutline.Condition.Evaluation
namespace AblOutline.Condition

-- ============================================================= spellings

/-- The marks that compare. -/
def Comparison.marks : List (String × Comparison) :=
  [("=", .equal), ("<>", .unequal), ("<", .less), (">", .greater), ("<=", .atMost),
   (">=", .atLeast)]

/-- The words that compare. -/
def Comparison.words : List (String × Comparison) :=
  [("EQ", .equal), ("NE", .unequal), ("LT", .less), ("GT", .greater), ("LE", .atMost),
   ("GE", .atLeast), ("BEGINS", .begins)]

/-- The token spells the comparison. -/
def Comparison.IsSpelled (how : Comparison) (t : Token) : Prop :=
  (∃ mark, (mark, how) ∈ marks ∧ t.isSymbol mark = true)
    ∨ ∃ word, (word, how) ∈ words ∧ t.isWord word = true

/-- The words that stand for values. -/
def Constant.words : List (String × Constant) :=
  [("TRUE", .truth true), ("YES", .truth true), ("FALSE", .truth false),
   ("NO", .truth false), ("PROVERSION", .proversion), ("OPSYS", .opsys),
   ("WINDOW-SYSTEM", .windowSystem), ("BATCH-MODE", .batchMode)]

/-- The token spells the constant. -/
def Constant.IsSpelled (c : Constant) (t : Token) : Prop :=
  ∃ word, (word, c) ∈ words ∧ t.isWord word = true

-- =========================================================== derivations

/-- The nonterminals. `orMore` is what follows the first part of an `or`, and so
on. -/
inductive Nonterminal where
  | or
  | orMore
  | and
  | andMore
  | not
  | comparison
  | sum
  | sumMore
  | operand
deriving DecidableEq, Repr, Inhabited

/-- A derivation from a nonterminal. -/
inductive Derivation : Nonterminal → Type where
  | or (first : Derivation .and) (more : Derivation .orMore) : Derivation .or
  | orEnd : Derivation .orMore
  | orNext (word : Token) (h : word.isWord "OR" = true) (next : Derivation .and)
      (more : Derivation .orMore) : Derivation .orMore
  | and (first : Derivation .not) (more : Derivation .andMore) : Derivation .and
  | andEnd : Derivation .andMore
  | andNext (word : Token) (h : word.isWord "AND" = true) (next : Derivation .not)
      (more : Derivation .andMore) : Derivation .andMore
  | deny (word : Token) (h : word.isWord "NOT" = true) (denied : Derivation .not) :
      Derivation .not
  | affirm (c : Derivation .comparison) : Derivation .not
  | single (s : Derivation .sum) : Derivation .comparison
  | compare (left : Derivation .sum) (operator : Token) (how : Comparison)
      (h : how.IsSpelled operator) (right : Derivation .sum) : Derivation .comparison
  | sum (first : Derivation .operand) (more : Derivation .sumMore) : Derivation .sum
  | sumEnd : Derivation .sumMore
  | plus (mark : Token) (h : mark.isSymbol "+" = true) (next : Derivation .operand)
      (more : Derivation .sumMore) : Derivation .sumMore
  | minus (mark : Token) (h : mark.isSymbol "-" = true) (next : Derivation .operand)
      (more : Derivation .sumMore) : Derivation .sumMore
  | number (written : Token) (h : written.kind = .number) : Derivation .operand
  | text (literal : Token) (h : literal.kind = .string) : Derivation .operand
  | group (opening : Token) (ho : opening.isSymbol "(" = true) (inner : Derivation .or)
      (closing : Token) (hc : closing.isSymbol ")" = true) : Derivation .operand
  | negative (mark : Token) (h : mark.isSymbol "-" = true) (operand : Derivation .operand) :
      Derivation .operand
  | constant (word : Token) (c : Constant) (h : c.IsSpelled word) : Derivation .operand
  | defined (word opening name closing : Token) (hw : word.isWord "DEFINED" = true)
      (ho : opening.isSymbol "(" = true) (hn : name.kind = .word)
      (hc : closing.isSymbol ")" = true) : Derivation .operand

namespace Derivation

/-- The tokens that are derived. -/
def tokens {n : Nonterminal} : Derivation n → List Token
  | .or first more => first.tokens ++ more.tokens
  | .orEnd => []
  | .orNext word _ next more => word :: (next.tokens ++ more.tokens)
  | .and first more => first.tokens ++ more.tokens
  | .andEnd => []
  | .andNext word _ next more => word :: (next.tokens ++ more.tokens)
  | .deny word _ denied => word :: denied.tokens
  | .affirm c => c.tokens
  | .single s => s.tokens
  | .compare left operator _ _ right => left.tokens ++ operator :: right.tokens
  | .sum first more => first.tokens ++ more.tokens
  | .sumEnd => []
  | .plus mark _ next more => mark :: (next.tokens ++ more.tokens)
  | .minus mark _ next more => mark :: (next.tokens ++ more.tokens)
  | .number written _ => [written]
  | .text literal _ => [literal]
  | .group opening _ inner closing _ => opening :: (inner.tokens ++ [closing])
  | .negative mark _ operand => mark :: operand.tokens
  | .constant word _ _ => [word]
  | .defined word opening name closing _ _ _ _ => [word, opening, name, closing]

end Derivation

-- ================================================================ values

/-- What a derivation comes to: a result, or where something stands before it, the
result that comes of that. -/
abbrev Nonterminal.Fold (α β : Type) : Nonterminal → Type
  | .orMore | .andMore | .sumMore => α → β
  | _ => β

/-- The value of a derivation, where all operations that it takes are defined.
`defined` answers `DEFINED`. The right side of `OR` and `AND` is taken as a truth
only when the left does not decide. -/
def Derivation.value? (platform : Platform) (defined : String → Int64) {n : Nonterminal} :
    Derivation n → n.Fold Value (Option Value)
  | .or first more => (first.value? platform defined).bind (more.value? platform defined)
  | .orEnd => some
  | .orNext _ _ next more => fun left =>
    (next.value? platform defined).bind fun right =>
      left.truth?.bind fun x =>
        (if x then some true else right.truth?).bind fun y =>
          more.value? platform defined (.truth y)
  | .and first more => (first.value? platform defined).bind (more.value? platform defined)
  | .andEnd => some
  | .andNext _ _ next more => fun left =>
    (next.value? platform defined).bind fun right =>
      left.truth?.bind fun x =>
        (if x then right.truth? else some false).bind fun y =>
          more.value? platform defined (.truth y)
  | .deny _ _ denied =>
    (denied.value? platform defined).bind fun v => v.truth?.map fun x => .truth !x
  | .affirm c => c.value? platform defined
  | .single s => s.value? platform defined
  | .compare left _ how _ right =>
    (left.value? platform defined).bind fun a =>
      (right.value? platform defined).bind fun b => (Value.compare? how a b).map .truth
  | .sum first more => (first.value? platform defined).bind (more.value? platform defined)
  | .sumEnd => some
  | .plus _ _ next more => fun left =>
    (next.value? platform defined).bind fun right =>
      (Value.add? left right).bind (more.value? platform defined)
  | .minus _ _ next more => fun left =>
    (next.value? platform defined).bind fun right =>
      (Value.subtract? left right).bind (more.value? platform defined)
  | .number written _ => Value.ofNumber? written.text
  | .text literal _ => some (.text (Value.ofLiteral literal.text))
  | .group _ _ inner _ _ => inner.value? platform defined
  | .negative _ _ operand => (operand.value? platform defined).bind Value.negative?
  | .constant _ c _ => some (c.value platform)
  | .defined _ _ name _ _ _ _ _ => some (.whole (defined name.text))

end AblOutline.Condition
