/-
Case. ABL names, keywords and directives ignore that of ASCII letters, and only
it: a letter outside ASCII is equal to itself alone.

Texts compare through lower case beyond ASCII, as Unicode maps it: one character
to one, but for `İ`, which takes a combining dot, and a capital sigma, which
takes its final form at the end of a word.
-/
import AblOutline.Text.Blank
import AblOutline.Text.Table.Lowercase
namespace AblOutline.Text

-- ================================================================= ascii

/-- The text with every ASCII capital made small. -/
def lower (s : String) : String := String.ofList (s.toList.map Char.toLower)

/-- The text with every small ASCII letter made capital. -/
def upper (s : String) : String := String.ofList (s.toList.map Char.toUpper)

/-- Equal but for the case of ASCII letters. -/
def same (a b : String) : Bool := lower a == lower b

/-- `s` begins with `start`, but for the case of ASCII letters. -/
def startsSame (s start : String) : Bool :=
  (lower start).toList.isPrefixOf (lower s).toList

/-- `word` is `keyword` or a shortened form of it that keeps at least `least`
bytes. -/
def abbreviates (word keyword : String) (least : Nat) : Bool :=
  decide (least ≤ word.utf8ByteSize) && startsSame keyword word

-- =============================================================== unicode

/-- The lower case form of one character, out of context. -/
def lowercaseChar (c : Char) : Char :=
  let n := c.toNat
  match Table.lowercaseRuns.find? fun (first, last, step, _) =>
      first ≤ n && n ≤ last && (n - first) % step == 0 with
  | some (_, _, _, offset) => Char.ofNat ((n : Int) + offset).toNat
  | none => c

/-- The first character that casing does not look through has case. -/
def nextIsCased (cs : List Char) : Bool :=
  match cs.dropWhile (inRuns Table.caseIgnorable) with
  | c :: _ => inRuns Table.cased c
  | [] => false

/-- Lower case of `cs`, where `before` holds what precedes it, nearest first.
A capital sigma is final after a cased letter with none following. -/
def lowercaseAfter (before : List Char) : List Char → List Char
  | [] => []
  | c :: rest =>
    let here :=
      if c = 'Σ' then
        if nextIsCased before && !nextIsCased rest then ['ς'] else ['σ']
      else if c = 'İ' then ['i', '\u0307']
      else [lowercaseChar c]
    here ++ lowercaseAfter (c :: before) rest

/-- The text in lower case. -/
def lowercase (s : String) : String := String.ofList (lowercaseAfter [] s.toList)

end AblOutline.Text
