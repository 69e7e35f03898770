/-
Where a token ends. At every place of a source some token begins, and its
first characters decide which: the longest of the forms below that fits. A
lexeme is given by its kind and by how many characters it takes beyond the
first, so none is empty. Comments, strings and braces that are never closed
reach to the end of the input; no input is refused.
-/
import AblOutline.Token.Basic
namespace AblOutline

/-- A token's kind and the number of its characters after the first. -/
structure Lexeme where
  kind : TokenKind
  extent : Nat
deriving DecidableEq, Repr

namespace Lexeme

-- ============================================================== classes

/-- White space that does not break the line. -/
def isGap (c : Char) : Bool := c == ' ' || c == '\t' || c == '\x0c'

/-- A character that may begin a word. -/
def isNameStart (c : Char) : Bool := c.isAlpha || c == '_'

/-- A character of the name of a directive or of a snippet. -/
def isPlain (c : Char) : Bool := c.isAlphanum || c == '_' || c == '-'

/-- A character that may go on a word. -/
def isNamePart (c : Char) : Bool :=
  isPlain c || c == '#' || c == '$' || c == '%' || c == '&'

/-- A digit to base sixteen. -/
def isHexDigit (c : Char) : Bool :=
  c.isDigit || (decide ('a' ≤ c) && decide (c ≤ 'f')) || (decide ('A' ≤ c) && decide (c ≤ 'F'))

/-- A character outside ASCII. -/
def isForeign (c : Char) : Bool := decide (0x80 ≤ c.toNat)

/-- A visible ASCII character. -/
def isMark (c : Char) : Bool := decide (0x21 ≤ c.toNat) && decide (c.toNat ≤ 0x7E)

/-- A character that does not break the line. -/
def isInline (c : Char) : Bool := c != '\r' && c != '\n'

/-- The number of characters at the start of `cs` that satisfy `p`. -/
def leading (p : Char → Bool) (cs : List Char) : Nat := (cs.takeWhile p).length

/-- The first of `cs` satisfies `p`. -/
def begins (p : Char → Bool) (cs : List Char) : Bool := cs.head?.any p

-- ============================================================== extents

/-- How far a comment reaches after its opening mark, when `outer` further
comments around it are open too. -/
def commentExtent : Nat → List Char → Nat
  | outer, '/' :: '*' :: rest => commentExtent (outer + 1) rest + 2
  | 0, '*' :: '/' :: _ => 2
  | outer + 1, '*' :: '/' :: rest => commentExtent outer rest + 2
  | outer, _ :: rest => commentExtent outer rest + 1
  | _, [] => 0

/-- How far a string reaches after its opening quote: to the next `quote`
that is not doubled and that no tilde escapes. -/
def stringExtent (quote : Char) : List Char → Nat
  | '~' :: _ :: rest => stringExtent quote rest + 2
  | c :: d :: rest =>
    if c = quote then
      if d = quote then stringExtent quote rest + 2 else 1
    else stringExtent quote (d :: rest) + 1
  | [_] => 1
  | [] => 0

/-- How far braces reach after the opening one, when `outer` further pairs
around them are open too. Braces between quotes do not count; a tilde between
quotes escapes the character after it. -/
def braceExtent : Nat → Option Char → List Char → Nat
  | outer, some quote, '~' :: _ :: rest => braceExtent outer (some quote) rest + 2
  | outer, some quote, c :: rest =>
    braceExtent outer (if c = quote then none else some quote) rest + 1
  | outer, none, c :: rest =>
    if c = '"' ∨ c = '\x27' then braceExtent outer (some c) rest + 1
    else if c = '\x7b' then braceExtent (outer + 1) none rest + 1
    else if c = '\x7d' then
      match outer with
      | 0 => 1
      | outer + 1 => braceExtent outer none rest + 1
    else braceExtent outer none rest + 1
  | _, _, [] => 0

/-- How far a word reaches after its first character. A dot goes on a word
only with a further name after it. -/
def wordExtent : List Char → Nat
  | '.' :: c :: rest => if isNamePart c then wordExtent rest + 2 else 0
  | c :: rest => if isNamePart c then wordExtent rest + 1 else 0
  | [] => 0

/-- How far a number reaches after its first digit. -/
def numberExtent (first : Char) (rest : List Char) : Nat :=
  match first, rest with
  | '0', 'x' :: more | '0', 'X' :: more =>
    if begins isHexDigit more then leading isHexDigit more + 1 else 0
  | _, _ =>
    let whole := leading Char.isDigit rest
    match rest.drop whole with
    | '.' :: more => if begins Char.isDigit more then whole + 1 + leading Char.isDigit more else whole
    | _ => whole

-- ================================================================ forms

/-- The symbols of two characters. -/
def pairs : List (Char × Char) :=
  [('<', '>'), ('<', '='), ('>', '='), ('+', '='), ('-', '='), ('*', '='), ('/', '='), (':', ':')]

/-- The lexeme that an opening brace begins: a reference when a name, a digit
or a star follows, else an include directive. -/
def ofBrace (rest : List Char) : Lexeme :=
  let kind :=
    if begins (fun c => c == '&' || c.isDigit || c == '*') rest then TokenKind.reference
    else .inclusion
  ⟨kind, braceExtent 0 none rest⟩

/-- The lexeme that a dollar sign begins: a snippet placeholder between two of
them, a run of unknown characters when the second is missing. -/
def ofDollar (rest : List Char) : Lexeme :=
  if begins isNameStart rest then
    let name := leading isPlain rest
    if begins (· == '$') (rest.drop name) then ⟨.word, name + 1⟩ else ⟨.unknown, name⟩
  else ⟨.symbol, 0⟩

/-- The lexeme that a slash begins. -/
def ofSlash (rest : List Char) : Lexeme :=
  match rest with
  | '/' :: more => ⟨.comment, leading isInline more + 1⟩
  | '*' :: more => ⟨.comment, commentExtent 0 more + 1⟩
  | _ => ⟨.symbol, if begins (· == '=') rest then 1 else 0⟩

/-- The lexeme that a mark of punctuation begins. -/
def ofMark (c : Char) (rest : List Char) : Lexeme :=
  ⟨.symbol, if begins (fun d => pairs.contains (c, d)) rest then 1 else 0⟩

/-- The lexeme at the start of `c :: rest`, whatever stands before it. -/
def first (c : Char) (rest : List Char) : Lexeme :=
  if isGap c then ⟨.blank, leading isGap rest⟩
  else if c = '\r' then ⟨.eol, if begins (· == '\n') rest then 1 else 0⟩
  else if c = '\n' then ⟨.eol, 0⟩
  else if isNameStart c then ⟨.word, wordExtent rest⟩
  else if c.isDigit then ⟨.number, numberExtent c rest⟩
  else if c = '"' ∨ c = '\x27' then ⟨.string, stringExtent c rest⟩
  else if c = '\x7b' then ofBrace rest
  else if c = '/' then ofSlash rest
  else if c = '$' then ofDollar rest
  else if c = '&' ∧ begins Char.isAlpha rest then ⟨.directive, leading isPlain rest⟩
  else if c = '.' ∧ begins Char.isDigit rest then ⟨.number, leading Char.isDigit rest⟩
  else if isMark c then ofMark c rest
  else if isForeign c then ⟨.unknown, leading isForeign rest⟩
  else ⟨.unknown, 0⟩

-- ============================================================== context

/-- White space or the end of the input comes next. -/
def endsStatement (rest : List Char) : Bool :=
  rest.isEmpty || begins (fun c => isGap c || c == '\r' || c == '\n') rest

/-- A lexeme read after a token of kind `previous`. A colon with letters or
digits is a descriptor right after a string; a lone dot or colon with white
space behind it ends the statement. -/
def inContext (previous : Option TokenKind) (c : Char) (rest : List Char) (l : Lexeme) : Lexeme :=
  if l = ⟨.symbol, 0⟩ then
    if c = ':' ∧ previous = some .string ∧ begins Char.isAlphanum rest then
      ⟨.descriptor, leading Char.isAlphanum rest⟩
    else if (c = '.' ∨ c = ':') ∧ endsStatement rest then ⟨.eos, 0⟩
    else l
  else l

end Lexeme

end AblOutline
