/-
Cutting a text at a separator. A text with `n` separators has `n + 1` pieces,
some of them empty; the pieces joined by the separator are the text again.
-/
namespace AblOutline.Text

/-- The pieces of `cs` between the characters `sep`. -/
def piecesOf (sep : Char) : List Char → List (List Char)
  | [] => [[]]
  | c :: rest =>
    if c = sep then [] :: piecesOf sep rest
    else
      match piecesOf sep rest with
      | piece :: more => (c :: piece) :: more
      | [] => [[c]]

/-- The pieces of `s` between the characters `sep`. -/
def pieces (sep : Char) (s : String) : List String := (piecesOf sep s.toList).map String.ofList

/-- What stands before and after the first `sep`. -/
def cutFirst? (sep : Char) : List Char → Option (List Char × List Char)
  | [] => none
  | c :: rest =>
    if c = sep then some ([], rest)
    else (cutFirst? sep rest).map fun (before, after) => (c :: before, after)

/-- What stands before and after the last `sep`. -/
def cutLast? (sep : Char) (cs : List Char) : Option (List Char × List Char) :=
  (cutFirst? sep cs.reverse).map fun (after, before) => (before.reverse, after.reverse)

/-- The texts before and after the first `sep` of `s`. -/
def splitFirst? (sep : Char) (s : String) : Option (String × String) :=
  (cutFirst? sep s.toList).map fun (before, after) => (String.ofList before, String.ofList after)

/-- The texts before and after the last `sep` of `s`. -/
def splitLast? (sep : Char) (s : String) : Option (String × String) :=
  (cutLast? sep s.toList).map fun (before, after) => (String.ofList before, String.ofList after)

/-- `text` without `mark` at its start, where it starts with it. -/
def dropStart (mark : Char) : List Char → List Char
  | [] => []
  | c :: rest => if c = mark then rest else c :: rest

/-- `text` without `mark` at its end, where it ends with it. -/
def dropEnd (mark : Char) (cs : List Char) : List Char := (dropStart mark cs.reverse).reverse

/-- The lines of a text that LF or CR LF end. A line break at the end of the
text opens no further line. -/
def lines (s : String) : List String :=
  let all := piecesOf '\n' s.toList
  let ended := all.dropLast.map (dropEnd '\r')
  let unended := all.getLast?.toList.filter (· ≠ [])
  (ended ++ unended).map String.ofList

end AblOutline.Text
