/-
Programs by their structure: statements, blocks, procedures, editor sections
and branches that are taken, each on lines of its own, and headers of blocks
and procedures that nothing closes.

    items   := nothing
             | statement items
             | DO head :  items  END [DO] .  items
             | PROCEDURE name :  items  END [PROCEDURE] .  items
             | &ANALYZE-SUSPEND words  items  &ANALYZE-RESUME  items
             | &IF TRUE &THEN  items  &ENDIF  items
    program := items | items header program

A program is given by its pieces, so that statements and headers may be any
run of tokens. It says which procedures are found, on which line each ends,
and on which lines the headers stand that are never closed.
-/
import AblOutline.Condition.Expression
import AblOutline.Keyword.Statement
import AblOutline.Preprocess.Directive
import AblOutline.Proofs.Lexing

namespace AblOutline

-- ================================================================ pieces

/-- Only white space, line breaks and comments. -/
def IsGap (ps : List Piece) : Prop := ∀ p ∈ ps, p.kind.isTrivia = true

instance (ps : List Piece) : Decidable (IsGap ps) :=
  inferInstanceAs (Decidable (∀ p ∈ ps, _))

/-- The pieces that carry meaning. -/
def significant (ps : List Piece) : List Piece :=
  ps.filter (!·.kind.isTrivia)

namespace Piece

/-- The piece may stand within a statement: it ends none, is no directive,
expands to nothing else and is none of the words after which a statement
begins anew. -/
structure Tame (p : Piece) : Prop where
  kind : p.kind ≠ .eos ∧ p.kind ≠ .directive ∧ p.kind ≠ .eof
  plain : p.kind ≠ .reference ∧ p.kind ≠ .inclusion
  word : p.kind = .word → Keyword.isIn p.text Keyword.restarts = false

instance (p : Piece) : Decidable p.Tame :=
  decidable_of_iff
    ((p.kind ≠ .eos ∧ p.kind ≠ .directive ∧ p.kind ≠ .eof)
      ∧ (p.kind ≠ .reference ∧ p.kind ≠ .inclusion)
      ∧ (p.kind = .word → Keyword.isIn p.text Keyword.restarts = false))
    ⟨fun h => ⟨h.1, h.2.1, h.2.2⟩, fun h => ⟨h.kind, h.plain, h.word⟩⟩

/-- The piece is the word, whatever its case. -/
def Spells (p : Piece) (word : String) : Prop :=
  p.kind = .word ∧ Text.upper p.text = word

end Piece

-- ============================================================= sentences

/-- A statement or the header of a block, with what stands around it. -/
structure Sentence where
  before : List Piece
  first : List Char
  rest : List Piece
  /-- The dot or colon that ends it. -/
  stop : Char
  after : List Piece

namespace Sentence

def pieces (s : Sentence) : List Piece :=
  s.before ++ ⟨.word, s.first⟩ :: (s.rest ++ ⟨.eos, [s.stop]⟩ :: s.after)

/-- The first word, in capitals. -/
def word (s : Sentence) : String := Text.upper (String.ofList s.first)

/-- A run of tokens that the lexer reads as it stands here: a word, tokens of
a statement, and the end of the statement. -/
structure WellFormed (s : Sentence) : Prop where
  before : IsGap s.before
  after : IsGap s.after
  first : Keyword.isIn (String.ofList s.first) Keyword.restarts = false
  rest : ∀ p ∈ s.rest, p.Tame
  lexes : lex (charsOf s.pieces) = s.pieces

instance (s : Sentence) : Decidable s.WellFormed :=
  decidable_of_iff
    (IsGap s.before ∧ IsGap s.after
      ∧ Keyword.isIn (String.ofList s.first) Keyword.restarts = false
      ∧ (∀ p ∈ s.rest, p.Tame) ∧ lex (charsOf s.pieces) = s.pieces)
    ⟨fun h => ⟨h.1, h.2.1, h.2.2.1, h.2.2.2.1, h.2.2.2.2⟩,
      fun h => ⟨h.before, h.after, h.first, h.rest, h.lexes⟩⟩

/-- A statement that opens and closes nothing. -/
structure IsStatement (s : Sentence) : Prop extends WellFormed s where
  kind : StatementKind.ofWord (String.ofList s.first) = .other
  stop : s.stop = '.'

/-- The header of a block. -/
structure IsHeader (s : Sentence) : Prop extends WellFormed s where
  word : s.word ∈ ["DO", "FOR", "REPEAT", "CASE"]
  stop : s.stop = ':'

/-- The name in the header of a procedure. -/
def name (s : Sentence) : String := (significant s.rest).head?.elim "" (·.text)

/-- The header of a procedure. -/
structure IsProcedure (s : Sentence) : Prop extends WellFormed s where
  word : s.word = "PROCEDURE"
  name : ∃ p, significant s.rest = [p] ∧ p.kind = .word
  stop : s.stop = ':'

/-- `END` of what `keyword` opens. -/
structure IsEnd (keyword : String) (s : Sentence) : Prop
    extends WellFormed s where
  word : s.word = "END"
  names : significant s.rest = []
    ∨ ∃ p, significant s.rest = [p] ∧ p.Spells keyword
  stop : s.stop = '.'

end Sentence

-- ================================================================= lines

/-- A directive, with what stands around it. -/
structure DirectiveLine where
  before : List Piece
  word : List Char
  operands : List Piece
  after : List Piece

namespace DirectiveLine

def pieces (d : DirectiveLine) : List Piece :=
  d.before ++ ⟨.directive, d.word⟩ :: (d.operands ++ d.after)

/-- A directive that the lexer reads as it stands here. -/
structure WellFormed (word : String) (d : DirectiveLine) : Prop where
  before : IsGap d.before
  after : IsGap d.after
  word : Text.upper (String.ofList d.word) = word
  plain : ∀ p ∈ d.operands, p.kind ≠ .eof ∧ p.kind ≠ .reference
    ∧ p.kind ≠ .inclusion
  lexes : lex (charsOf d.pieces) = d.pieces

instance (word : String) (d : DirectiveLine) : Decidable (d.WellFormed word) :=
  decidable_of_iff
    (IsGap d.before ∧ IsGap d.after
      ∧ Text.upper (String.ofList d.word) = word
      ∧ (∀ p ∈ d.operands, p.kind ≠ .eof ∧ p.kind ≠ .reference
        ∧ p.kind ≠ .inclusion)
      ∧ lex (charsOf d.pieces) = d.pieces)
    ⟨fun h => ⟨h.1, h.2.1, h.2.2.1, h.2.2.2.1, h.2.2.2.2⟩,
      fun h => ⟨h.before, h.after, h.word, h.plain, h.lexes⟩⟩

/-- A directive whose operands reach to the end of its line. -/
structure TakesLine (word : String) (d : DirectiveLine) : Prop
    extends WellFormed word d where
  /-- No operand breaks the line or is the tilde that continues it. -/
  operands : ∀ p ∈ d.operands, p.kind ≠ .eol
    ∧ p ≠ ⟨.symbol, ['~']⟩
  line : ∀ p ∈ d.after.head?, p.kind = .eol

/-- A directive with a literal as its condition, as `&IF TRUE &THEN`. -/
structure HasLiteral (word : String) (holds : Bool) (d : DirectiveLine) : Prop
    extends WellFormed word d where
  condition : ∃ front literal back stop,
    d.operands = front ++ literal :: (back ++ [⟨.directive, stop⟩])
      ∧ IsGap front ∧ literal.Spells (if holds then "TRUE" else "FALSE")
      ∧ IsGap back ∧ Text.upper (String.ofList stop) = "&THEN"

/-- A directive without operands. -/
structure IsLone (word : String) (d : DirectiveLine) : Prop
    extends WellFormed word d where
  operands : d.operands = []

/-- `&IF TRUE &THEN`. -/
def IsTrue (d : DirectiveLine) : Prop := d.HasLiteral "&IF" true

/-- `&ENDIF`. -/
def IsEndIf (d : DirectiveLine) : Prop := d.IsLone "&ENDIF"

end DirectiveLine

-- ================================================================= items

/-- What stands one after the other in a program or a body. -/
inductive Items where
  | nil
  | statement (s : Sentence) (more : Items)
  | block (head : Sentence) (body : Items) (stop : Sentence) (more : Items)
  | procedure (head : Sentence) (body : Items) (stop : Sentence)
      (more : Items)
  | suspended (head : DirectiveLine) (body : Items) (stop : DirectiveLine)
      (more : Items)
  | branch (head : DirectiveLine) (body : Items) (stop : DirectiveLine)
      (more : Items)

namespace Items

/-- The pieces, construct by construct. -/
def chunks : Items → List (List Piece)
  | nil => []
  | statement s more => s.pieces :: more.chunks
  | block head body stop more | procedure head body stop more =>
    head.pieces :: (body.chunks ++ stop.pieces :: more.chunks)
  | suspended head body stop more | branch head body stop more =>
    head.pieces :: (body.chunks ++ stop.pieces :: more.chunks)

def pieces (items : Items) : List Piece := items.chunks.flatten

/-- Every construct is what it stands for, and no procedure lies in another
one; `inProcedure` tells whether all this lies in one. -/
def Fits (inProcedure : Bool) : Items → Prop
  | nil => True
  | statement s more => s.IsStatement ∧ more.Fits inProcedure
  | block head body stop more =>
    head.IsHeader ∧ body.Fits inProcedure ∧ stop.IsEnd head.word
      ∧ more.Fits inProcedure
  | procedure head body stop more =>
    inProcedure = false ∧ head.IsProcedure ∧ body.Fits true
      ∧ stop.IsEnd "PROCEDURE" ∧ more.Fits inProcedure
  | suspended head body stop more =>
    head.TakesLine "&ANALYZE-SUSPEND" ∧ body.Fits inProcedure
      ∧ stop.TakesLine "&ANALYZE-RESUME" ∧ more.Fits inProcedure
  | branch head body stop more =>
    head.IsTrue ∧ body.Fits inProcedure ∧ stop.IsEndIf
      ∧ more.Fits inProcedure

end Items

/-- A procedure as it is found: its name and the line of its `END`. -/
structure Found where
  name : String
  endLine : Option Nat
deriving DecidableEq, Repr

/-- The procedures among the items, as they come in the text, where the items
start at some place. -/
def Items.procedures (start : Position) : Items → List Found
  | nil => []
  | statement s more => more.procedures (start.past s.pieces)
  | block head body stop more =>
    let inner := start.past head.pieces
    let outer := inner.past body.pieces
    body.procedures inner ++ more.procedures (outer.past stop.pieces)
  | procedure head body stop more =>
    let inner := start.past head.pieces
    let outer := inner.past body.pieces
    ⟨head.name, some (outer.past stop.before).line⟩
      :: body.procedures inner ++ more.procedures (outer.past stop.pieces)
  | suspended head body stop more | branch head body stop more =>
    let inner := start.past head.pieces
    let outer := inner.past body.pieces
    body.procedures inner ++ more.procedures (outer.past stop.pieces)

-- ============================================================== programs

/-- The header of a block or procedure. -/
inductive Opener where
  | block (head : Sentence)
  | procedure (head : Sentence)

namespace Opener

def head : Opener → Sentence
  | block head | procedure head => head

def isProcedure : Opener → Bool
  | block _ => false
  | procedure _ => true

/-- The header is what it stands for, and opens no procedure in another
one. -/
def Fits (inProcedure : Bool) : Opener → Prop
  | block head => head.IsHeader
  | procedure head => inProcedure = false ∧ head.IsProcedure

end Opener

/-- Items, with headers between them that nothing closes. -/
inductive Program where
  | closed (items : Items)
  | unclosed (items : Items) (opener : Opener) (more : Program)

namespace Program

def chunks : Program → List (List Piece)
  | closed items => items.chunks
  | unclosed items opener more =>
    items.chunks ++ opener.head.pieces :: more.chunks

def pieces (p : Program) : List Piece := p.chunks.flatten

/-- The text of the program. -/
def text (p : Program) : String := String.ofList (charsOf p.pieces)

/-- The number of headers that nothing closes. -/
def unclosedCount : Program → Nat
  | closed _ => 0
  | unclosed _ _ more => more.unclosedCount + 1

/-- Every construct is what it stands for, and no procedure lies in another
one. -/
def Fits (inProcedure : Bool) : Program → Prop
  | closed items => items.Fits inProcedure
  | unclosed items opener more =>
    items.Fits inProcedure ∧ opener.Fits inProcedure
      ∧ more.Fits (inProcedure || opener.isProcedure)

/-- Each construct has lines of its own: all but the last end with a line
break, and none begins within one. -/
structure OnOwnLines (chunks : List (List Piece)) : Prop where
  ends : ∀ c ∈ chunks.dropLast, EndsLine c
  joins : chunks.IsChain fun a b => Joins (charsOf a) (charsOf b)

/-- The lines of the headers that nothing closes, the outermost first. -/
def openLines (start : Position) : Program → List Nat
  | closed _ => []
  | unclosed items opener more =>
    let place := start.past items.pieces
    (place.past opener.head.before).line
      :: more.openLines (place.past opener.head.pieces)

/-- The procedures, as they come in the text. -/
def procedures (start : Position) : Program → List Found
  | closed items => items.procedures start
  | unclosed items opener more =>
    let place := start.past items.pieces
    items.procedures start
      ++ (if opener.isProcedure then [⟨opener.head.name, none⟩] else [])
      ++ more.procedures (place.past opener.head.pieces)

end Program

-- ================================================================ lexing

theorem charsOf_flatten (chunks : List (List Piece)) :
    charsOf chunks.flatten = (chunks.map charsOf).flatten := by
  induction chunks with
  | nil => rfl
  | cons c chunks ih =>
      rw [List.flatten_cons, charsOf, List.flatMap_append, ← charsOf, ← charsOf,
        ih]
      rfl

/-- The pieces of chunks that stand on their own lines are those of each. -/
theorem lex_of_onOwnLines {chunks : List (List Piece)}
    (hl : ∀ c ∈ chunks, lex (charsOf c) = c)
    (ho : Program.OnOwnLines chunks) :
    lex (charsOf chunks.flatten) = chunks.flatten := by
  rcases List.eq_nil_or_concat chunks with rfl | ⟨front, last, rfl⟩
  · rw [List.flatten_nil, charsOf, List.flatMap_nil, lex, lexFrom]
  · rw [List.concat_eq_append] at hl ho ⊢
    have hends := ho.ends
    rw [List.dropLast_concat] at hends
    have hchars : charsOf (front ++ [last]).flatten
        = (front.map charsOf).flatten ++ charsOf last := by
      rw [charsOf_flatten, List.map_append, List.flatten_append]
      simp
    have hmap : (front.map charsOf ++ [charsOf last]).IsChain Joins := by
      have := ho.joins
      rw [← List.map_singleton, ← List.map_append, List.isChain_map]
      exact this
    rw [hchars, lex_chunks ?_ hmap, hl last (by simp)]
    · rw [List.flatten_append, List.flatten_singleton, List.flatMap_map]
      congr 1
      rw [List.flatMap_def, List.map_congr_left (g := id)]
      · rw [List.map_id]
      · intro c hc
        exact hl c (List.mem_append_left _ hc)
    · intro cs hcs
      obtain ⟨c, hc, rfl⟩ := List.mem_map.1 hcs
      rw [hl c (List.mem_append_left _ hc)]
      exact hends c hc

theorem forall_mem_nested {P : List Piece → Prop} {head stop : List Piece}
    {body more : List (List Piece)} (hh : P head) (hb : ∀ c ∈ body, P c)
    (hs : P stop) (hm : ∀ c ∈ more, P c) :
    ∀ c ∈ head :: (body ++ stop :: more), P c := by
  intro c hc
  rcases List.mem_cons.1 hc with rfl | hc
  · exact hh
  rcases List.mem_append.1 hc with hc | hc
  · exact hb c hc
  rcases List.mem_cons.1 hc with rfl | hc
  · exact hs
  · exact hm c hc

section Chunks

variable {P : List Piece → Prop} {inProcedure : Bool}
  (hs : ∀ s : Sentence, s.WellFormed → P s.pieces)
  (hd : ∀ (word : String) (d : DirectiveLine), d.WellFormed word → P d.pieces)

include hs hd

/-- What holds of all sentences and lines holds of all chunks of items. -/
theorem Items.forall_chunks {items : Items} (h : items.Fits inProcedure) :
    ∀ c ∈ items.chunks, P c := by
  induction items generalizing inProcedure with
  | nil => nofun
  | statement s more ih =>
      obtain ⟨hstatement, hmore⟩ := h
      intro c hc
      rcases List.mem_cons.1 hc with rfl | hc
      · exact hs _ hstatement.toWellFormed
      · exact ih hmore c hc
  | block head body stop more ihb ihm =>
      obtain ⟨hhead, hb, hstop, hm⟩ := h
      exact forall_mem_nested (hs _ hhead.toWellFormed) (ihb hb)
        (hs _ hstop.toWellFormed) (ihm hm)
  | procedure head body stop more ihb ihm =>
      obtain ⟨-, hhead, hb, hstop, hm⟩ := h
      exact forall_mem_nested (hs _ hhead.toWellFormed) (ihb hb)
        (hs _ hstop.toWellFormed) (ihm hm)
  | suspended head body stop more ihb ihm =>
      obtain ⟨hhead, hb, hstop, hm⟩ := h
      exact forall_mem_nested (hd _ _ hhead.toWellFormed) (ihb hb)
        (hd _ _ hstop.toWellFormed) (ihm hm)
  | branch head body stop more ihb ihm =>
      obtain ⟨hhead, hb, hstop, hm⟩ := h
      exact forall_mem_nested (hd _ _ hhead.toWellFormed) (ihb hb)
        (hd _ _ hstop.toWellFormed) (ihm hm)

theorem Program.forall_chunks {p : Program} (h : p.Fits inProcedure) :
    ∀ c ∈ p.chunks, P c := by
  induction p generalizing inProcedure with
  | closed items => exact Items.forall_chunks hs hd h
  | unclosed items opener more ih =>
      obtain ⟨hi, ho, hm⟩ := h
      intro c hc
      rcases List.mem_append.1 hc with hc | hc
      · exact Items.forall_chunks hs hd hi c hc
      rcases List.mem_cons.1 hc with rfl | hc
      · cases opener with
        | block head => exact hs _ ho.toWellFormed
        | procedure head => exact hs _ ho.2.toWellFormed
      · exact ih hm c hc

end Chunks

/-- The pieces of the text of a program are those that it is given by. -/
theorem Program.lex_text {p : Program} {inProcedure : Bool}
    (h : p.Fits inProcedure) (ho : OnOwnLines p.chunks) :
    lex p.text.toList = p.pieces := by
  unfold Program.text
  rw [String.toList_ofList]
  exact lex_of_onOwnLines
    (Program.forall_chunks (fun _ hs => hs.lexes) (fun _ _ hd => hd.lexes) h) ho

-- ============================================================= expansion

/-- The piece stands for itself. -/
def Piece.IsPlain (p : Piece) : Prop :=
  p.kind ≠ .reference ∧ p.kind ≠ .inclusion

instance (p : Piece) : Decidable p.IsPlain := inferInstanceAs (Decidable (_ ∧ _))

theorem IsGap.plain {ps : List Piece} (h : IsGap ps) :
    ∀ p ∈ ps, p.IsPlain := by
  intro p hp
  have ht := h p hp
  refine ⟨fun hk => ?_, fun hk => ?_⟩
  all_goals
    rw [hk] at ht
    cases ht

theorem DirectiveLine.WellFormed.isPlain {d : DirectiveLine} {word : String}
    (h : d.WellFormed word) : ∀ p ∈ d.pieces, p.IsPlain := by
  intro p hp
  rcases List.mem_append.1 hp with hp | hp
  · exact h.before.plain p hp
  rcases List.mem_cons.1 hp with rfl | hp
  · exact ⟨nofun, nofun⟩
  rcases List.mem_append.1 hp with hp | hp
  · exact (h.plain p hp).2
  · exact h.after.plain p hp

/-- Nothing in a program is to be expanded. -/
theorem Program.plain {p : Program} {inProcedure : Bool}
    (h : p.Fits inProcedure) : ∀ c ∈ p.chunks, ∀ q ∈ c, q.IsPlain := by
  refine Program.forall_chunks (fun s hs q hq => ?_) (fun _ _ hd => hd.isPlain) h
  · rcases List.mem_append.1 hq with hq | hq
    · exact hs.before.plain q hq
    rcases List.mem_cons.1 hq with rfl | hq
    · exact ⟨nofun, nofun⟩
    rcases List.mem_append.1 hq with hq | hq
    · exact (hs.rest q hq).plain
    rcases List.mem_cons.1 hq with rfl | hq
    · exact ⟨nofun, nofun⟩
    · exact hs.after.plain q hq

end AblOutline
