/-
Conditions of `&IF` and `&ELSEIF`, as trees. The grammar, from the loosest to
the tightest:

  or          and {OR and}
  and         not {AND not}
  not         NOT not, or a comparison
  comparison  sum, or sum operator sum
  sum         operand {+ operand, or - operand}
  operand     number, string, constant, DEFINED ( word ), - operand, ( or )

Words are read whatever their case. Trivia and string descriptors are left
out before the tree is read, and the tree must take all that remains.
-/
import AblOutline.Token.Basic
namespace AblOutline.Condition

/-- How two values are compared. -/
inductive Comparison where
  | equal
  | unequal
  | less
  | greater
  | atMost
  | atLeast
  | begins
deriving DecidableEq, Repr, Inhabited

/-- The comparison that a token asks for. -/
def Comparison.ofToken? (t : Token) : Option Comparison :=
  match t.kind with
  | .symbol =>
    match t.text with
    | "=" => some .equal
    | "<>" => some .unequal
    | "<" => some .less
    | ">" => some .greater
    | "<=" => some .atMost
    | ">=" => some .atLeast
    | _ => none
  | .word =>
    match Text.upper t.text with
    | "EQ" => some .equal
    | "NE" => some .unequal
    | "LT" => some .less
    | "GT" => some .greater
    | "LE" => some .atMost
    | "GE" => some .atLeast
    | "BEGINS" => some .begins
    | _ => none
  | _ => none

/-- A word that stands for a value of its own. -/
inductive Constant where
  | truth (value : Bool)
  | proversion
  | opsys
  | windowSystem
  | batchMode
deriving DecidableEq, Repr, Inhabited

/-- The constant of the given name. -/
def Constant.ofWord? (word : String) : Option Constant :=
  match Text.upper word with
  | "TRUE" | "YES" => some (.truth true)
  | "FALSE" | "NO" => some (.truth false)
  | "PROVERSION" => some .proversion
  | "OPSYS" => some .opsys
  | "WINDOW-SYSTEM" => some .windowSystem
  | "BATCH-MODE" => some .batchMode
  | _ => none

/-- A condition. -/
inductive Expression where
  /-- A number as it is written. -/
  | number (text : String)
  /-- A string with its quotes, as it is written. -/
  | text (literal : String)
  | constant (value : Constant)
  | defined (name : String)
  | negative (operand : Expression)
  | add (left right : Expression)
  | subtract (left right : Expression)
  | compare (how : Comparison) (left right : Expression)
  | not (operand : Expression)
  | and (left right : Expression)
  | or (left right : Expression)
deriving DecidableEq, Repr, Inhabited

namespace Expression

-- ============================================================== reading

/-- A tree and the tokens after it. -/
abbrev Reading := Option (Expression × List Token)

/-- The name in parentheses after `DEFINED`. -/
def readDefined : List Token → Reading
  | opening :: name :: closing :: rest =>
    if opening.isSymbol "(" && name.kind == .word && closing.isSymbol ")" then
      some (.defined name.text, rest)
    else none
  | _ => none

/-- A word that stands for a value. -/
def readWord (word : String) (rest : List Token) : Reading :=
  if Text.upper word = "DEFINED" then readDefined rest
  else (Constant.ofWord? word).map fun c => (.constant c, rest)

mutual

/-- Reads alternatives. The first argument bounds the depth of the call. -/
def readOr : Nat → List Token → Reading
  | 0, _ => none
  | fuel + 1, ts => do
    let (left, rest) ← readAnd fuel ts
    readOrMore fuel left rest

/-- Reads what may follow an alternative. -/
def readOrMore : Nat → Expression → List Token → Reading
  | 0, _, _ => none
  | _ + 1, left, [] => some (left, [])
  | fuel + 1, left, t :: rest =>
    if t.isWord "OR" then do
      let (right, rest) ← readAnd fuel rest
      readOrMore fuel (.or left right) rest
    else some (left, t :: rest)

/-- Reads conditions that must hold together. -/
def readAnd : Nat → List Token → Reading
  | 0, _ => none
  | fuel + 1, ts => do
    let (left, rest) ← readNot fuel ts
    readAndMore fuel left rest

/-- Reads what may follow a condition that must hold with others. -/
def readAndMore : Nat → Expression → List Token → Reading
  | 0, _, _ => none
  | _ + 1, left, [] => some (left, [])
  | fuel + 1, left, t :: rest =>
    if t.isWord "AND" then do
      let (right, rest) ← readNot fuel rest
      readAndMore fuel (.and left right) rest
    else some (left, t :: rest)

/-- Reads a denial or a comparison. -/
def readNot : Nat → List Token → Reading
  | 0, _ => none
  | fuel + 1, [] => readComparison fuel []
  | fuel + 1, t :: rest =>
    if t.isWord "NOT" then do
      let (operand, rest) ← readNot fuel rest
      some (.not operand, rest)
    else readComparison fuel (t :: rest)

/-- Reads one sum or a comparison of two. -/
def readComparison : Nat → List Token → Reading
  | 0, _ => none
  | fuel + 1, ts => do
    let (left, rest) ← readSum fuel ts
    match rest with
    | [] => some (left, [])
    | t :: more =>
      match Comparison.ofToken? t with
      | none => some (left, rest)
      | some how => do
        let (right, rest) ← readSum fuel more
        some (.compare how left right, rest)

/-- Reads a sum. -/
def readSum : Nat → List Token → Reading
  | 0, _ => none
  | fuel + 1, ts => do
    let (left, rest) ← readOperand fuel ts
    readSumMore fuel left rest

/-- Reads what may follow an operand of a sum. -/
def readSumMore : Nat → Expression → List Token → Reading
  | 0, _, _ => none
  | _ + 1, left, [] => some (left, [])
  | fuel + 1, left, t :: rest =>
    if t.isSymbol "+" then do
      let (right, rest) ← readOperand fuel rest
      readSumMore fuel (.add left right) rest
    else if t.isSymbol "-" then do
      let (right, rest) ← readOperand fuel rest
      readSumMore fuel (.subtract left right) rest
    else some (left, t :: rest)

/-- Reads an operand. -/
def readOperand : Nat → List Token → Reading
  | 0, _ => none
  | _ + 1, [] => none
  | fuel + 1, t :: rest =>
    match t.kind with
    | .number => some (.number t.text, rest)
    | .string => some (.text t.text, rest)
    | .word => readWord t.text rest
    | .symbol =>
      if t.text = "(" then do
        let (inner, rest) ← readOr fuel rest
        match rest with
        | closing :: rest => if closing.isSymbol ")" then some (inner, rest) else none
        | [] => none
      else if t.text = "-" then do
        let (operand, rest) ← readOperand fuel rest
        some (.negative operand, rest)
      else none
    | _ => none

end

/-- A depth of calls that reading `ts` never exceeds. -/
def depthBound (ts : List Token) : Nat := 8 * (ts.length + 1)

/-- The tokens of a condition that carry meaning. -/
def significant (ts : List Token) : List Token :=
  ts.filter fun t => !t.kind.isTrivia && t.kind != .descriptor

/-- The condition that the tokens write, if they write one. -/
def ofTokens? (ts : List Token) : Option Expression :=
  let ts := significant ts
  match readOr (depthBound ts) ts with
  | some (e, []) => some e
  | _ => none

end Expression

end AblOutline.Condition
