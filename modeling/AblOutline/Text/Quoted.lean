/-
A text as a report shows it: between double quotes, on one line, with every
character that would not show as itself written by its escape.
-/
import AblOutline.Text.Blank
import AblOutline.Text.Table.CombiningMark
import AblOutline.Text.Table.Unprintable
namespace AblOutline.Text

/-- The digits of `n` to base sixteen, in small letters. -/
def hexDigits (n : Nat) : List Char := Nat.toDigits 16 n

/-- A character that shows as itself, standing alone. -/
def isPrintable (c : Char) : Bool :=
  decide (0x20 ≤ c.toNat) && c.toNat != 0x7F
    && !inRuns Table.unprintable c && !inRuns Table.combiningMark c

/-- How one character is written between double quotes. -/
def escapeChar (c : Char) : List Char :=
  if c = '\x00' then ['\\', '0']
  else if c = '\t' then ['\\', 't']
  else if c = '\r' then ['\\', 'r']
  else if c = '\n' then ['\\', 'n']
  else if c = '\\' || c = '"' then ['\\', c]
  else if isPrintable c then [c]
  else ['\\', 'u', '\x7b'] ++ hexDigits c.toNat ++ ['\x7d']

/-- The text between double quotes, escaped where needed. -/
def quoted (s : String) : String :=
  String.ofList (['"'] ++ s.toList.flatMap escapeChar ++ ['"'])

end AblOutline.Text
