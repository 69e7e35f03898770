/-
Whole numbers written in digits. A dump column holds one with an optional
sign and nothing else; what does not fit the width is no number.
-/
namespace AblOutline.Text

/-- The value of one digit to the given base, letters counting from ten. -/
def digitValue? (base : Nat) (c : Char) : Option Nat :=
  let v? :=
    if c.isDigit then some (c.toNat - '0'.toNat)
    else if c.isLower then some (c.toNat - 'a'.toNat + 10)
    else if c.isUpper then some (c.toNat - 'A'.toNat + 10)
    else none
  v?.filter (· < base)

/-- The value of a run of digits read after `value`. -/
def digitsFrom? (base value : Nat) : List Char → Option Nat
  | [] => some value
  | c :: rest => (digitValue? base c).bind fun d => digitsFrom? base (value * base + d) rest

/-- The value of at least one digit, and nothing but digits. -/
def natural? (base : Nat) (cs : List Char) : Option Nat :=
  if cs.isEmpty then none else digitsFrom? base 0 cs

/-- A number of 32 bits without sign; it may be written with a plus. -/
def unsigned32? (cs : List Char) : Option Nat :=
  let digits :=
    match cs with
    | '+' :: rest => rest
    | _ => cs
  (natural? 10 digits).filter (· < 0x100000000)

/-- A number of 32 bits with sign. -/
def signed32? (cs : List Char) : Option Int :=
  match cs with
  | '-' :: rest => ((natural? 10 rest).filter (· ≤ 0x80000000)).map fun n => -(n : Int)
  | '+' :: rest => ((natural? 10 rest).filter (· < 0x80000000)).map Int.ofNat
  | _ => ((natural? 10 cs).filter (· < 0x80000000)).map Int.ofNat

end AblOutline.Text
