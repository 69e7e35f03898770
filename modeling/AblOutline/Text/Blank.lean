/-
Classes of characters, each given by the runs of code points that belong to it,
and white space, the Unicode property White_Space. It separates the arguments of
an include directive and is trimmed from directive operands, dump columns and
file names.
-/
namespace AblOutline.Text

/-- Some run, from its first to its last member, holds the code point of `c`. -/
def inRuns (runs : List (Nat × Nat)) (c : Char) : Bool :=
  runs.any fun run => run.1 ≤ c.toNat && c.toNat ≤ run.2

/-- Runs of code points with the property White_Space. -/
def blankRuns : List (Nat × Nat) :=
  [(0x9, 0xD), (0x20, 0x20), (0x85, 0x85), (0xA0, 0xA0), (0x1680, 0x1680), (0x2000, 0x200A),
   (0x2028, 0x2029), (0x202F, 0x202F), (0x205F, 0x205F), (0x3000, 0x3000)]

/-- A character of white space. -/
def isBlank (c : Char) : Bool := inRuns blankRuns c

/-- `cs` without the white space at its start. -/
def trimStart (cs : List Char) : List Char := cs.dropWhile isBlank

/-- `cs` without the white space at its end. -/
def trimEnd (cs : List Char) : List Char := (cs.reverse.dropWhile isBlank).reverse

/-- `cs` without the white space at either end. -/
def trimChars (cs : List Char) : List Char := trimEnd (trimStart cs)

/-- `s` without the white space at either end. -/
def trim (s : String) : String := String.ofList (trimChars s.toList)

end AblOutline.Text
