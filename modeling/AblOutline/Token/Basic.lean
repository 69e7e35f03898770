/-
Tokens: the pieces of a source that the lexer tells apart, each with its text
and its place. A token owns its text, because tokens of included files and of
preprocessor values are put into the stream of the file that is being read.
-/
import AblOutline.Text.Position
import AblOutline.Text.Case
import AblOutline.Text.Split
namespace AblOutline

/-- What sort of piece a token is. -/
inductive TokenKind where
  /-- An identifier or keyword, possibly qualified (`db.table.field`). -/
  | word
  /-- An operator or a mark of punctuation. -/
  | symbol
  /-- A text between quotes. -/
  | string
  /-- `:U`, `:L30` and the like, right after a string. -/
  | descriptor
  | number
  /-- A block comment, nested ones included, or a line comment. -/
  | comment
  /-- Spaces, tabs and form feeds. -/
  | blank
  /-- A line break: CR LF, LF or CR. -/
  | eol
  /-- The `.` or `:` that ends a statement. -/
  | eos
  /-- A preprocessor reference: `{&name}`, `{1}`, `{*}`. -/
  | reference
  /-- `&IF`, `&GLOBAL-DEFINE` and the like. -/
  | directive
  /-- An include directive: `{file.i arguments}`. -/
  | inclusion
  /-- Characters that begin nothing in the language. -/
  | unknown
  /-- The end of the input. -/
  | eof
deriving DecidableEq, Repr, Inhabited

namespace TokenKind

/-- The kinds that carry no meaning for statements. -/
def trivia : List TokenKind := [.blank, .comment, .eol]

/-- A token of this kind carries no meaning for statements. -/
def isTrivia (kind : TokenKind) : Bool := trivia.contains kind

/-- The name of the kind in reports. -/
def name : TokenKind → String
  | .word => "Word"
  | .symbol => "Symbol"
  | .string => "String"
  | .descriptor => "StringDescriptor"
  | .number => "Number"
  | .comment => "Comment"
  | .blank => "Whitespace"
  | .eol => "Eol"
  | .eos => "Eos"
  | .reference => "PreprocVariable"
  | .directive => "PreprocDirective"
  | .inclusion => "Include"
  | .unknown => "Unknown"
  | .eof => "Eof"

/-- All kinds. -/
def all : List TokenKind :=
  [.word, .symbol, .string, .descriptor, .number, .comment, .blank, .eol, .eos, .reference,
   .directive, .inclusion, .unknown, .eof]

/-- The kind with the given name. -/
def ofName? (name : String) : Option TokenKind := all.find? (·.name == name)

end TokenKind

/-- One piece of a source. -/
structure Token where
  kind : TokenKind
  text : String
  /-- Where it starts in the file that it comes from. -/
  start : Position
  /-- The bytes that it takes in the file that it comes from. -/
  range : ByteRange
  /-- Index of that file in the include chain: 0 is the file being read. -/
  owner : Nat
deriving DecidableEq, Repr, Inhabited

namespace Token

/-- The mark of the end of the input, `offset` bytes from its start. -/
def eof (start : Position) (offset : Nat) : Token :=
  { kind := .eof, text := "", start, range := ⟨offset, offset⟩, owner := 0 }

/-- The token marks the end of the input. -/
def isEof (t : Token) : Bool := t.kind == .eof

/-- The token is the word `w`, whatever its case. -/
def isWord (t : Token) (w : String) : Bool := t.kind == .word && Text.same t.text w

/-- The token is the symbol `s`. -/
def isSymbol (t : Token) (s : String) : Bool := t.kind == .symbol && t.text == s

/-- The line as people count it, from one. -/
def lineNumber (t : Token) : Nat := t.start.line + 1

/-- What the token covers in its own file. -/
def span (t : Token) : Span := Span.ofText t.start t.text

/-- `cs` without a quote `q` at its end, where `q` is also its first
character; the first character is dropped. -/
def stripQuotes : List Char → List Char
  | [] => []
  | q :: rest => if q = '"' ∨ q = '\x27' then Text.dropEnd q rest else q :: rest

/-- The text, without its quotes when the token is a string. -/
def unquoted (t : Token) : String :=
  if t.kind = .string then String.ofList (stripQuotes t.text.toList) else t.text

/-- The same token, put down to another file of the include chain. -/
def withOwner (t : Token) (owner : Nat) : Token := { t with owner }

end Token

end AblOutline
