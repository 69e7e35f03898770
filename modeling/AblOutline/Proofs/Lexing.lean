/-
Texts as pieces. The pieces of a text are its tokens without their places
(`lex`); the places follow from the characters before them (`tokenize_eq`).
A text that is cut after a line break, where the break is a token of its own,
has the pieces of its first half and then those of the second
(`lex_append`), so a text that is put together from chunks of whole lines has
the pieces of its chunks (`lex_chunks`).
-/
import AblOutline.Proofs.Lexing.Extent
import Mathlib.Data.List.Chain

namespace AblOutline

open Lexeme

-- ================================================================ pieces

/-- A token without its place. -/
structure Piece where
  kind : TokenKind
  chars : List Char
deriving DecidableEq, Repr

namespace Piece

def text (p : Piece) : String := String.ofList p.chars

/-- The token that the piece is at a place. -/
def token (p : Piece) (start : Position) (offset : Nat) : Token :=
  { kind := p.kind, text := p.text, start
    range := ⟨offset, offset + Token.byteCount p.chars⟩, owner := 0 }

end Piece

/-- The pieces of a text that follows a token of kind `previous`. -/
def lexFrom (previous : Option TokenKind) : List Char → List Piece
  | [] => []
  | c :: rest =>
    let lexeme := (first c rest).inContext previous c rest
    ⟨lexeme.kind, c :: rest.take lexeme.extent⟩
      :: lexFrom (some lexeme.kind) (rest.drop lexeme.extent)
termination_by cs => cs.length
decreasing_by simp only [List.length_drop, List.length_cons]; omega

/-- The pieces of a text. -/
def lex (cs : List Char) : List Piece := lexFrom none cs

/-- The characters of some pieces. -/
def charsOf (ps : List Piece) : List Char := ps.flatMap (·.chars)

/-- The place after some pieces. -/
def Position.past (start : Position) (ps : List Piece) : Position :=
  ps.foldl (fun q p => q.after p.chars) start

/-- The number of bytes of some pieces. -/
def bytesOf (ps : List Piece) : Nat :=
  ps.foldr (fun p n => Token.byteCount p.chars + n) 0

/-- The tokens that pieces are from a place on. -/
def tokensFrom (start : Position) (offset : Nat) : List Piece → List Token
  | [] => []
  | p :: ps =>
    p.token start offset
      :: tokensFrom (start.after p.chars)
          (offset + Token.byteCount p.chars) ps

variable {previous : Option TokenKind} {a b cs : List Char}

theorem charsOf_lexFrom (previous : Option TokenKind) (cs : List Char) :
    charsOf (lexFrom previous cs) = cs := by
  fun_induction lexFrom previous cs with
  | case1 => rfl
  | case2 previous c rest lexeme ih =>
      show c :: rest.take lexeme.extent ++ charsOf _ = _
      rw [ih, List.cons_append, List.take_append_drop]

theorem lexFrom_ne_nil (h : cs ≠ []) : lexFrom previous cs ≠ [] := by
  obtain ⟨c, rest, rfl⟩ := List.exists_cons_of_ne_nil h
  rw [lexFrom]
  exact List.cons_ne_nil _ _

-- ================================================================ places

section Places

variable {start : Position} {offset : Nat} {ps qs : List Piece}

theorem past_append :
    start.past (ps ++ qs) = (start.past ps).past qs := by
  rw [Position.past, List.foldl_append]
  rfl

theorem tokensFrom_append :
    tokensFrom start offset (ps ++ qs)
      = tokensFrom start offset ps
        ++ tokensFrom (start.past ps) (offset + bytesOf ps) qs := by
  induction ps generalizing start offset with
  | nil => rfl
  | cons p ps ih =>
      show _ :: tokensFrom _ _ (ps ++ qs) = _ :: (_ ++ _)
      rw [ih, Nat.add_assoc]
      rfl

/-- A token without its place. -/
def Token.piece (t : Token) : Piece := ⟨t.kind, t.text.toList⟩

theorem Token.piece_text (t : Token) : t.piece.text = t.text :=
  String.ofList_toList

theorem Piece.piece_token (p : Piece) : (p.token start offset).piece = p := by
  show (⟨p.kind, (String.ofList p.chars).toList⟩ : Piece) = _
  rw [String.toList_ofList]

theorem map_piece_tokensFrom :
    (tokensFrom start offset ps).map (·.piece) = ps := by
  induction ps generalizing start offset with
  | nil => rfl
  | cons p ps ih =>
      show (p.token start offset).piece :: (tokensFrom _ _ ps).map _ = _
      rw [ih, p.piece_token]

theorem mem_tokensFrom {t : Token} (h : t ∈ tokensFrom start offset ps) :
    t.piece ∈ ps ∧ t.owner = 0 := by
  refine ⟨?_, ?_⟩
  · have hmem := List.mem_map_of_mem (f := fun t => t.piece) h
    rw [map_piece_tokensFrom] at hmem
    exact hmem
  · induction ps generalizing start offset with
    | nil => cases h
    | cons p ps ih =>
        rcases List.mem_cons.1 h with rfl | h
        · rfl
        · exact ih h

theorem scanFrom_eq (start : Position) (offset : Nat) :
    Token.scanFrom start offset previous cs
      = tokensFrom start offset (lexFrom previous cs)
        ++ [Token.eof (start.past (lexFrom previous cs))
            (offset + bytesOf (lexFrom previous cs))] := by
  revert start offset
  fun_induction lexFrom previous cs with
  | case1 =>
      intro start offset
      rw [Token.scanFrom]
      rfl
  | case2 previous c rest lexeme ih =>
      intro start offset
      rw [Token.scanFrom]
      show _ :: _ = _ :: (_ ++ _)
      rw [ih, Nat.add_assoc]
      rfl

/-- The tokens of a text are its pieces in their places, and the end mark. -/
theorem tokenize_eq (text : String) :
    tokenize text
      = tokensFrom .origin 0 (lex text.toList)
        ++ [Token.eof (Position.origin.past (lex text.toList))
            (bytesOf (lex text.toList))] := by
  rw [tokenize, scanFrom_eq, Nat.zero_add]
  rfl

end Places

-- =============================================================== cutting

/-- The last piece is a line break. -/
def EndsLine (ps : List Piece) : Prop :=
  ∃ front chars, ps = front ++ [⟨.eol, chars⟩]

theorem endsLine_iff {ps : List Piece} :
    EndsLine ps ↔ ps.getLast?.map (·.kind) = some .eol := by
  constructor
  · rintro ⟨front, chars, rfl⟩
    rw [List.getLast?_concat]
    rfl
  · intro h
    obtain ⟨p, hp, hk⟩ := Option.map_eq_some_iff.1 h
    obtain ⟨front, rfl⟩ := List.getLast?_eq_some_iff.1 hp
    exact ⟨front, p.chars, by rw [← hk]⟩

instance (ps : List Piece) : Decidable (EndsLine ps) :=
  decidable_of_iff _ endsLine_iff.symm

/-- Between the two texts no line break is cut in two. -/
def Joins (a b : List Char) : Prop :=
  ¬ (a.getLast? = some '\r' ∧ b.head? = some '\n')

instance (a b : List Char) : Decidable (Joins a b) :=
  inferInstanceAs (Decidable (¬ _))

theorem kind_ite {P : Prop} [Decidable P] {l m : Lexeme} {k : TokenKind}
    (hl : l.kind ≠ k) (hm : m.kind ≠ k) : (if P then l else m).kind ≠ k := by
  split
  · exact hl
  · exact hm

/-- No token but a line break is one, and none is the end mark. -/
theorem first_kind_ne {c : Char} {rest : List Char} {k : TokenKind}
    (hk : k = .eol ∨ k = .eof) (h : ¬ IsBreak c) : (first c rest).kind ≠ k := by
  have hleaf : ∀ l ∈ [TokenKind.blank, .word, .number, .string, .reference,
      .inclusion, .comment, .symbol, .unknown, .directive], l ≠ k := by
    rcases hk with rfl | rfl <;> decide
  have hbrace : (ofBrace rest).kind ≠ k := by
    unfold ofBrace
    dsimp only
    split <;> exact hleaf _ (by decide)
  have hunknown : TokenKind.unknown ≠ k := hleaf _ (by decide)
  have hsymbol : TokenKind.symbol ≠ k := hleaf _ (by decide)
  have hcomment : TokenKind.comment ≠ k := hleaf _ (by decide)
  have hslash : (ofSlash rest).kind ≠ k := by
    unfold ofSlash
    split
    · exact hcomment
    · exact hcomment
    · exact hsymbol
  have hnumber : TokenKind.number ≠ k := hleaf _ (by decide)
  have hword : TokenKind.word ≠ k := hleaf _ (by decide)
  have hdollar : (ofDollar rest).kind ≠ k :=
    kind_ite (kind_ite hword hunknown) hsymbol
  unfold first
  rw [if_neg fun hr => h (Or.inl hr), if_neg fun hn => h (Or.inr hn)]
  refine kind_ite (hleaf .blank (by decide)) (kind_ite hword
    (kind_ite hnumber (kind_ite (hleaf .string (by decide)) ?_)))
  refine kind_ite hbrace (kind_ite hslash (kind_ite hdollar ?_))
  refine kind_ite (hleaf .directive (by decide)) (kind_ite hnumber ?_)
  exact kind_ite hsymbol (kind_ite hunknown hunknown)

/-- Gaps, comments and what stands in braces are told by their first
characters. -/
theorem first_cases (c : Char) (rest : List Char) :
    isGap c = true ∧ first c rest = ⟨.blank, leading isGap rest⟩
      ∨ c = '/' ∧ first c rest = ofSlash rest
      ∨ c = '\x7b' ∧ first c rest = ofBrace rest
      ∨ ∀ k ∈ [TokenKind.blank, .comment, .reference, .inclusion],
        (first c rest).kind ≠ k := by
  cases hc : isGap c with
  | true =>
      refine Or.inl ⟨rfl, ?_⟩
      unfold first
      exact if_pos hc
  | false =>
      right
      by_cases hslash : c = '/'
      · left
        subst hslash
        exact ⟨rfl, rfl⟩
      right
      by_cases hbrace : c = '\x7b'
      · left
        subst hbrace
        exact ⟨rfl, rfl⟩
      right
      intro k hk
      have hleaf : ∀ l ∈ [TokenKind.eol, .word, .number, .string, .symbol,
          .unknown, .directive], l ≠ k := by
        intro l hl he
        subst he
        revert l
        decide
      have hword : TokenKind.word ≠ k := hleaf _ (by decide)
      have hnumber : TokenKind.number ≠ k := hleaf _ (by decide)
      have hunknown : TokenKind.unknown ≠ k := hleaf _ (by decide)
      have hsymbol : TokenKind.symbol ≠ k := hleaf _ (by decide)
      have hbreak : TokenKind.eol ≠ k := hleaf _ (by decide)
      have hdollar : (ofDollar rest).kind ≠ k :=
        kind_ite (kind_ite hword hunknown) hsymbol
      unfold first
      rw [hc, if_neg Bool.false_ne_true, if_neg hbrace, if_neg hslash]
      refine kind_ite hbreak (kind_ite hbreak (kind_ite hword
        (kind_ite hnumber (kind_ite (hleaf .string (by decide)) ?_))))
      refine kind_ite hdollar (kind_ite (hleaf .directive (by decide))
        (kind_ite hnumber ?_))
      exact kind_ite hsymbol (kind_ite hunknown hunknown)

/-- The context makes no lexeme one of these. -/
theorem inContext_kind_ne {c : Char} {rest : List Char} {l : Lexeme}
    {k : TokenKind} (hk : k ∈ [TokenKind.blank, .comment, .reference, .inclusion])
    (h : l.kind ≠ k) : (l.inContext previous c rest).kind ≠ k := by
  have hdescriptor : TokenKind.descriptor ≠ k := by
    rintro rfl
    exact absurd hk (by decide)
  have heos : TokenKind.eos ≠ k := by
    rintro rfl
    exact absurd hk (by decide)
  unfold inContext
  exact kind_ite (kind_ite hdescriptor (kind_ite heos h)) h

/-- The end mark is no part of a text. -/
theorem lexFrom_kind_ne_eof {p : Piece} (h : p ∈ lexFrom previous cs) :
    p.kind ≠ .eof := by
  fun_induction lexFrom previous cs with
  | case1 => cases h
  | case2 previous c rest lexeme ih =>
      rcases List.mem_cons.1 h with rfl | h
      · have hfirst : (first c rest).kind ≠ .eof := by
          by_cases hc : IsBreak c
          · rcases hc with rfl | rfl <;> nofun
          · exact first_kind_ne (Or.inr rfl) hc
        show lexeme.kind ≠ .eof
        have hlexeme : lexeme = (first c rest).inContext previous c rest := rfl
        rw [hlexeme]
        unfold inContext
        refine kind_ite (kind_ite nofun (kind_ite nofun hfirst)) hfirst
      · exact ih h

/-- What a line break token is made of. -/
theorem eol_cases {c : Char} {rest : List Char}
    (h : ((first c rest).inContext previous c rest).kind = .eol) :
    (c = '\n' ∧ (first c rest).inContext previous c rest = ⟨.eol, 0⟩)
      ∨ (c = '\r' ∧ (first c rest).inContext previous c rest
        = ⟨.eol, if begins (· == '\n') rest then 1 else 0⟩) := by
  have hbreak : IsBreak c := by
    by_contra hc
    have hkind : (first c rest).kind ≠ .eol :=
      first_kind_ne (Or.inl rfl) hc
    unfold inContext at h
    split at h
    · rename_i hl
      rw [hl] at hkind
      split at h
      · cases h
      · split at h
        · cases h
        · rw [hl] at h
          cases h
    · exact hkind h
  rcases hbreak with rfl | rfl
  · exact Or.inr ⟨rfl, rfl⟩
  · exact Or.inl ⟨rfl, rfl⟩

theorem endsBreak_of_mem {chars : List Char}
    (h : ⟨.eol, chars⟩ ∈ lexFrom previous cs) : EndsBreak chars := by
  fun_induction lexFrom previous cs with
  | case1 => cases h
  | case2 previous c rest lexeme ih =>
      rcases List.mem_cons.1 h with he | h
      · obtain ⟨hk, rfl⟩ := Piece.mk.inj he
        rcases eol_cases hk.symm with ⟨rfl, hl⟩ | ⟨rfl, hl⟩
        · have hlexeme : lexeme = ⟨.eol, 0⟩ := hl
          rw [hlexeme]
          exact ⟨[], '\n', rfl, Or.inr rfl⟩
        · have hlexeme : lexeme
              = ⟨.eol, if begins (· == '\n') rest then 1 else 0⟩ := hl
          rw [hlexeme]
          dsimp only
          cases rest with
          | nil => exact ⟨[], '\r', rfl, Or.inl rfl⟩
          | cons d rest =>
              by_cases hd : d = '\n'
              · subst hd
                exact ⟨['\r'], '\n', rfl, Or.inr rfl⟩
              · refine ⟨[], '\r', ?_, Or.inl rfl⟩
                simp [begins, hd]
      · exact ih h

/-- A text whose last token is a line break ends with one. -/
theorem endsBreak_of_endsLine (h : EndsLine (lexFrom previous cs)) :
    EndsBreak cs := by
  obtain ⟨front, chars, he⟩ := h
  have hmem : ⟨.eol, chars⟩ ∈ lexFrom previous cs := by
    rw [he]
    exact List.mem_append_right _ (List.mem_singleton_self _)
  obtain ⟨init, c, hchars, hc⟩ := endsBreak_of_mem hmem
  refine ⟨charsOf front ++ init, c, ?_, hc⟩
  rw [← charsOf_lexFrom previous cs, he, charsOf,
    List.flatMap_append, List.append_assoc]
  simp [charsOf, hchars]

/-- Only a string changes how the next token is read. -/
theorem lexFrom_eq_lex (h : previous ≠ some .string) :
    lexFrom previous cs = lex cs := by
  have hcontext : ∀ c rest (l : Lexeme),
      l.inContext previous c rest = l.inContext none c rest := by
    intro c rest l
    unfold inContext
    simp [h]
  unfold lex
  cases cs with
  | nil => rw [lexFrom, lexFrom]
  | cons c rest =>
      rw [lexFrom, lexFrom, hcontext]

/-- A line break that ends a text, before another text. -/
theorem eol_append {c : Char} {rest : List Char}
    (hk : ((first c rest).inContext previous c rest).kind = .eol)
    (hall : rest.drop ((first c rest).inContext previous c rest).extent = [])
    (hj : Joins (c :: rest) b) :
    (first c (rest ++ b)).inContext previous c (rest ++ b)
        = (first c rest).inContext previous c rest
      ∧ ((first c rest).inContext previous c rest).extent = rest.length := by
  rcases eol_cases hk with ⟨rfl, hl⟩ | ⟨rfl, hl⟩
  · rw [hl] at hall ⊢
    have hrest : rest = [] := hall
    rw [hrest]
    exact ⟨rfl, rfl⟩
  · rw [hl] at hall ⊢
    cases rest with
    | nil =>
        -- a line feed after it would belong to the break
        have hb : begins (· == '\n') b = false := by
          cases b with
          | nil => rfl
          | cons d b =>
              cases hd : d == '\n' with
              | false => exact hd
              | true => exact absurd ⟨rfl, congrArg some (eq_of_beq hd)⟩ hj
        refine ⟨?_, rfl⟩
        show (⟨.eol, if begins (· == '\n') b then 1 else 0⟩ : Lexeme) = _
        rw [hb]
        rfl
    | cons d rest =>
        by_cases hd : begins (· == '\n') (d :: rest) = true
        · rw [if_pos hd] at hall ⊢
          have hrest : rest = [] := hall
          rw [hrest]
          refine ⟨?_, rfl⟩
          show (⟨.eol, if begins (· == '\n') (d :: rest) then 1 else 0⟩
            : Lexeme) = _
          rw [if_pos hd]
        · rw [if_neg hd] at hall
          cases hall

/-- A text cut after a line break that is a token. -/
theorem lexFrom_append (ha : EndsLine (lexFrom previous a))
    (hj : Joins a b) : lexFrom previous (a ++ b) = lexFrom previous a ++ lex b := by
  fun_induction lexFrom previous a with
  | case1 =>
      obtain ⟨front, chars, he⟩ := ha
      simp at he
  | case2 previous c rest lexeme ih =>
      have hline : EndsLine (lexFrom previous (c :: rest)) := by
        rw [lexFrom]
        exact ha
      have hends := endsBreak_of_endsLine hline
      obtain ⟨front, chars, he⟩ := ha
      by_cases hall : rest.drop lexeme.extent = []
      · -- the line break is all there is
        rw [hall, lexFrom] at he
        have hk : lexeme.kind = .eol := by
          cases front with
          | nil => exact (Piece.mk.inj (List.cons.inj he).1).1
          | cons p front => simp at he
        obtain ⟨hsame, hextent⟩ := eol_append hk hall hj
        rw [List.cons_append, lexFrom, hsame]
        show ⟨lexeme.kind, c :: (rest ++ b).take lexeme.extent⟩
            :: lexFrom (some lexeme.kind) ((rest ++ b).drop lexeme.extent)
          = ⟨lexeme.kind, c :: rest.take lexeme.extent⟩
            :: (lexFrom (some lexeme.kind) (rest.drop lexeme.extent) ++ lex b)
        have hlen : lexeme.extent = rest.length := hextent
        rw [hlen, List.take_left, List.drop_left, List.take_length,
          List.drop_length, lexFrom, List.nil_append,
          lexFrom_eq_lex (by rw [hk]; nofun)]
      · -- the line break that ends the text is in the rest
        have hlt : lexeme.extent < rest.length := by
          rw [List.drop_eq_nil_iff] at hall
          omega
        have hrest : EndsBreak rest := by
          obtain ⟨init, d, hinit, hd⟩ := hends
          cases init with
          | nil =>
              rw [(List.cons.inj hinit).2] at hlt
              cases hlt
          | cons x init => exact ⟨init, d, (List.cons.inj hinit).2, hd⟩
        have hsame := inContext_append (b := b) hrest hlt
        have hline : EndsLine
            (lexFrom (some lexeme.kind) (rest.drop lexeme.extent)) := by
          cases front with
          | nil =>
              exact absurd (List.cons.inj he).2 (lexFrom_ne_nil hall)
          | cons p front => exact ⟨front, chars, (List.cons.inj he).2⟩
        have hjoin : Joins (rest.drop lexeme.extent) b := by
          rintro ⟨hlast, hhead⟩
          refine hj ⟨?_, hhead⟩
          rw [List.getLast?_drop, if_neg (by omega)] at hlast
          rw [List.getLast?_cons, hlast]
          rfl
        rw [List.cons_append, lexFrom, hsame]
        show ⟨lexeme.kind, c :: (rest ++ b).take lexeme.extent⟩
            :: lexFrom (some lexeme.kind) ((rest ++ b).drop lexeme.extent)
          = ⟨lexeme.kind, c :: rest.take lexeme.extent⟩
            :: (lexFrom (some lexeme.kind) (rest.drop lexeme.extent) ++ lex b)
        rw [List.take_append_of_le_length (Nat.le_of_lt hlt),
          List.drop_append_of_le_length (Nat.le_of_lt hlt), ih hline hjoin]

theorem lex_append (ha : EndsLine (lex a)) (hj : Joins a b) :
    lex (a ++ b) = lex a ++ lex b := lexFrom_append ha hj

/-- A text of chunks of whole lines has the pieces of its chunks. -/
theorem lex_chunks {chunks : List (List Char)} {last : List Char}
    (hlines : ∀ c ∈ chunks, EndsLine (lex c))
    (hj : List.IsChain Joins (chunks ++ [last])) :
    lex (chunks.flatten ++ last) = chunks.flatMap lex ++ lex last := by
  induction chunks with
  | nil => rfl
  | cons c chunks ih =>
      rw [List.cons_append] at hj
      have hrest := hj.tail
      have hjoin : Joins c (chunks.flatten ++ last) := by
        cases chunks with
        | nil => exact (List.isChain_cons_cons.1 hj).1
        | cons d chunks =>
            have hd := (List.isChain_cons_cons.1 hj).1
            have hne : d ≠ [] := by
              rintro rfl
              obtain ⟨front, chars, he⟩ :=
                hlines [] (List.mem_cons_of_mem _ List.mem_cons_self)
              rw [lex, lexFrom] at he
              simp at he
            obtain ⟨x, d, rfl⟩ := List.exists_cons_of_ne_nil hne
            exact hd
      rw [List.flatten_cons, List.append_assoc, List.flatMap_cons,
        List.append_assoc, lex_append (hlines c List.mem_cons_self) hjoin,
        ih (fun d hd => hlines d (List.mem_cons_of_mem _ hd)) hrest]

end AblOutline
