/-
From text to tokens. The tokens of a text follow one another without a gap and
the last marks the end, so their texts joined are the text again; each knows
its line, column and bytes.
-/
import AblOutline.Token.Lexeme
namespace AblOutline

namespace Token

/-- The number of bytes that the characters take. -/
def byteCount : List Char → Nat
  | [] => 0
  | c :: rest => c.utf8Size + byteCount rest

/-- The tokens of a text from some place on: `start` and `offset` tell where
that is, `previous` the kind of the token before it. -/
def scanFrom (start : Position) (offset : Nat) (previous : Option TokenKind) :
    List Char → List Token
  | [] => [eof start offset]
  | c :: rest =>
    let lexeme := (Lexeme.first c rest).inContext previous c rest
    let chars := c :: rest.take lexeme.extent
    let stop := offset + byteCount chars
    { kind := lexeme.kind, text := String.ofList chars, start, range := ⟨offset, stop⟩,
      owner := 0 }
      :: scanFrom (start.after chars) stop (some lexeme.kind) (rest.drop lexeme.extent)
termination_by cs => cs.length
decreasing_by simp only [List.length_drop, List.length_cons]; omega

end Token

/-- The tokens of a text, the end mark last. -/
def tokenize (text : String) : List Token := Token.scanFrom .origin 0 none text.toList

/-- The tokens of a text that becomes part of another, put down to file
`owner`, without the end mark. -/
def tokenizeFragment (text : String) (owner : Nat) : List Token :=
  ((tokenize text).filter (!·.isEof)).map (·.withOwner owner)

end AblOutline
