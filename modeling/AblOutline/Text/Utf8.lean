/-
Reading bytes as UTF-8 without refusing any. Sources are often kept in a
legacy code page, so a byte sequence that encodes no character is replaced:
one U+FFFD stands for each longest run that begins a character and breaks off.
-/
namespace AblOutline.Text

/-- A byte that continues a character. -/
def isTail (b : UInt8) : Bool := 0x80 ≤ b && b ≤ 0xBF

/-- The bits of a continuing byte. -/
def tailBits (b : UInt8) : Nat := b.toNat % 0x40

/-- How the character that `b` begins goes on: the number of bytes after the
first, the least and the greatest value of the second, and the bits that the
first contributes. Nothing when no character begins with `b`. -/
def leading? (b : UInt8) : Option (Nat × UInt8 × UInt8 × Nat) :=
  if b < 0x80 then some (0, 0x80, 0xBF, b.toNat)
  else if b < 0xC2 then none
  else if b < 0xE0 then some (1, 0x80, 0xBF, b.toNat % 0x20)
  else if b = 0xE0 then some (2, 0xA0, 0xBF, 0)
  else if b = 0xED then some (2, 0x80, 0x9F, 0xD)
  else if b < 0xF0 then some (2, 0x80, 0xBF, b.toNat % 0x10)
  else if b = 0xF0 then some (3, 0x90, 0xBF, 0)
  else if b < 0xF4 then some (3, 0x80, 0xBF, b.toNat % 0x8)
  else if b = 0xF4 then some (3, 0x80, 0x8F, 4)
  else none

/-- The continuing bytes at the start of `bs`, at most `count` of them, their
bits put after `bits`. The first must lie between `low` and `high`. The flag
tells whether all were there; the number is how many were taken. -/
def takeTails (low high : UInt8) (bits : Nat) : Nat → List UInt8 → Bool × Nat × Nat
  | 0, _ => (true, bits, 0)
  | _ + 1, [] => (false, bits, 0)
  | count + 1, b :: rest =>
    if low ≤ b && b ≤ high then
      let (whole, bits, taken) := takeTails 0x80 0xBF (bits * 0x40 + tailBits b) count rest
      (whole, bits, taken + 1)
    else (false, bits, 0)

/-- The character at the start of `b :: rest` and the number of bytes of
`rest` that it takes. -/
def decodeFirst (b : UInt8) (rest : List UInt8) : Char × Nat :=
  match leading? b with
  | none => ('\uFFFD', 0)
  | some (count, low, high, bits) =>
    match takeTails low high bits count rest with
    | (true, bits, taken) => (Char.ofNat bits, taken)
    | (false, _, taken) => ('\uFFFD', taken)

/-- The characters that the bytes encode. -/
def decodeUtf8 : List UInt8 → List Char
  | [] => []
  | b :: rest =>
    let (c, taken) := decodeFirst b rest
    c :: decodeUtf8 (rest.drop taken)
termination_by bs => bs.length
decreasing_by simp only [List.length_drop, List.length_cons]; omega

/-- The text that the bytes encode. -/
def ofUtf8 (bytes : List UInt8) : String := String.ofList (decodeUtf8 bytes)

end AblOutline.Text
