/-
One text after another. Where the first text ends with a line feed that is a
token of its own, nothing of it reaches into the second: no comment, string or
brace is open, and what is read after a line break does not ask what came
before. So the tokens of the two texts together are those of the first and then
those of the second, moved down and on by what the first one takes
(`tokenize_append`).

A lone CR does not do, since the next text may begin with the LF that belongs
to it.
-/
import AblOutline.Proofs.Lexing.Tiling

namespace AblOutline

-- ================================================================= moving

/-- The place so many lines further down. -/
def Position.down (p : Position) (lines : Nat) : Position :=
  ⟨p.line + lines, p.column⟩

/-- The token behind that many lines and bytes of another text. -/
def Token.behind (lines bytes : Nat) (t : Token) : Token :=
  { t with
    start := t.start.down lines
    range := ⟨t.range.start + bytes, t.range.stop + bytes⟩ }

section Moving

variable {p : Position} {lines bytes : Nat} {cs : List Char} {ps : List Piece}

theorem down_nextLine : p.nextLine.down lines = (p.down lines).nextLine := by
  simp [Position.down, Position.nextLine]
  omega

theorem after_down : (p.down lines).after cs = (p.after cs).down lines := by
  fun_induction Position.after p cs with
  | case1 p => rfl
  | case2 p rest ih =>
      rw [Position.after, ← down_nextLine, ih]
  | case3 p c rest hne hc ih =>
      rw [Position.after, if_pos hc, ← down_nextLine, ih]
      exact hne
  | case4 p c rest hne hc ih =>
      rw [Position.after, if_neg hc]
      · exact ih
      · exact hne

theorem past_down : (p.down lines).past ps = (p.past ps).down lines := by
  induction ps generalizing p with
  | nil => rfl
  | cons q ps ih =>
      show ((p.down lines).after q.chars).past ps = _
      rw [after_down, ih]
      rfl

/-- Pieces further down and further on are the same tokens, moved. -/
theorem tokensFrom_down {offset : Nat} :
    tokensFrom (p.down lines) (offset + bytes) ps
      = (tokensFrom p offset ps).map (·.behind lines bytes) := by
  induction ps generalizing p offset with
  | nil => rfl
  | cons q ps ih =>
      have hsize : offset + bytes + Token.byteCount q.chars
          = offset + Token.byteCount q.chars + bytes := by omega
      show q.token (p.down lines) (offset + bytes)
          :: tokensFrom _ (offset + bytes + Token.byteCount q.chars) ps = _
      rw [after_down, hsize, ih]
      simp [Piece.token, tokensFrom, Token.behind, hsize]

end Moving

-- ================================================================== seams

/-- The text is empty, or its last token before the end mark is a line break
that ends with a line feed. -/
def EndsInLineFeed (text : String) : Prop :=
  text = ""
    ∨ ∃ t ∈ ((tokenize text).filter (!·.isEof)).getLast?,
        t.kind = .eol ∧ t.text.toList.getLast? = some '\n'

instance (text : String) : Decidable (EndsInLineFeed text) :=
  inferInstanceAs (Decidable (_ ∨ _))

/-- The tokens of a text but for the end mark. -/
theorem filter_tokenize (text : String) :
    (tokenize text).filter (!·.isEof)
      = tokensFrom .origin 0 (lex text.toList) := by
  rw [tokenize_eq, List.filter_append]
  have hpieces : (tokensFrom .origin 0 (lex text.toList)).filter (!·.isEof)
      = tokensFrom .origin 0 (lex text.toList) := by
    rw [List.filter_eq_self]
    intro t ht
    have hkind : t.kind ≠ .eof := lexFrom_kind_ne_eof (mem_tokensFrom ht).1
    simp [Token.isEof, hkind]
  rw [hpieces]
  exact List.append_nil _

/-- What a text that ends in a line feed is made of. -/
theorem EndsInLineFeed.endsLine {text : String} (h : EndsInLineFeed text)
    (hne : text ≠ "") :
    EndsLine (lex text.toList) ∧ text.toList.getLast? = some '\n' := by
  obtain hempty | ⟨t, ht, hkind, hfeed⟩ := h
  · exact absurd hempty hne
  rw [filter_tokenize, Option.mem_def, List.getLast?_eq_some_iff] at ht
  obtain ⟨front, hfront⟩ := ht
  have hback : (tokensFrom .origin 0 (lex text.toList)).map (·.piece)
      = lex text.toList := map_piece_tokensFrom
  have hpieces : lex text.toList
      = front.map (·.piece) ++ [⟨.eol, t.text.toList⟩] := by
    rw [← hback, hfront, List.map_append, ← hkind]
    rfl
  have hchars : charsOf (lex text.toList) = text.toList :=
    charsOf_lexFrom none text.toList
  refine ⟨⟨_, _, hpieces⟩, ?_⟩
  rw [← hchars, hpieces, charsOf, List.flatMap_append, List.flatMap_singleton,
    List.getLast?_append, hfeed]
  rfl

/-- After a line feed the next token stands in the first column. -/
theorem lastLine_of_getLast? {cs : List Char} (h : cs.getLast? = some '\n') :
    lastLine cs = [] := by
  obtain ⟨front, rfl⟩ := List.getLast?_eq_some_iff.1 h
  rw [lastLine, List.rtakeWhile_concat_neg]
  decide

/-- The tokens of two texts, one after the other. -/
theorem tokenize_append {a b : String} (h : EndsInLineFeed a) :
    tokenize (a ++ b)
      = (tokenize a).filter (!·.isEof)
        ++ (tokenize b).map (·.behind (lineBreaks a.toList) a.utf8ByteSize) := by
  by_cases hempty : a = ""
  · subst hempty
    have hnone : lex "".toList = [] := by simp [lex, lexFrom]
    have hstay : (tokenize b).map (·.behind 0 0) = tokenize b :=
      List.map_id (tokenize b)
    rw [String.empty_append, filter_tokenize, hnone]
    exact hstay.symm
  obtain ⟨hline, hfeed⟩ := h.endsLine hempty
  have hjoins : Joins a.toList b.toList := by
    intro hcut
    rw [hfeed] at hcut
    exact absurd hcut.1 (by decide)
  have hlex : lex (a ++ b).toList = lex a.toList ++ lex b.toList := by
    rw [String.toList_append]
    exact lex_append hline hjoins
  have hplace : Position.origin.past (lex a.toList)
      = Position.origin.down (lineBreaks a.toList) := by
    rw [lex, past_lexFrom, origin_after, lastLine_of_getLast? hfeed]
    simp [Position.down, Position.origin]
  have hbytes : bytesOf (lex a.toList) = a.utf8ByteSize := by
    rw [bytesOf_eq, lex, charsOf_lexFrom, String.ofList_toList]
  -- the tokens of `b`, and its end mark, begin where those of `a` end
  have hmoved : tokensFrom (Position.origin.past (lex a.toList))
        (0 + bytesOf (lex a.toList)) (lex b.toList)
      = (tokensFrom .origin 0 (lex b.toList)).map
        (·.behind (lineBreaks a.toList) a.utf8ByteSize) := by
    rw [hplace, hbytes, tokensFrom_down]
  have hsum : bytesOf (lex a.toList ++ lex b.toList)
      = bytesOf (lex b.toList) + a.utf8ByteSize := by
    rw [bytesOf_eq, ← hbytes, bytesOf_eq, bytesOf_eq, charsOf,
      List.flatMap_append, String.ofList_append, String.utf8ByteSize_append]
    exact Nat.add_comm _ _
  have hmark : Token.eof
        (Position.origin.past (lex a.toList ++ lex b.toList))
        (bytesOf (lex a.toList ++ lex b.toList))
      = (Token.eof (Position.origin.past (lex b.toList))
          (bytesOf (lex b.toList))).behind (lineBreaks a.toList)
            a.utf8ByteSize := by
    rw [past_append, hplace, past_down, hsum]
    rfl
  rw [filter_tokenize, tokenize_eq (a ++ b), tokenize_eq b, hlex, hmark,
    tokensFrom_append, hmoved]
  simp

/-- A string behind a comment that holds a lone CR: the one line break more
than line feeds, and a column that counts characters. -/
theorem tokenize_append_comment :
    EndsInLineFeed "/*\r*/\r\n"
      ∧ tokenize ("/*\r*/\r\n" ++ "é 'a':U")
        = (tokenize "/*\r*/\r\n").filter (!·.isEof)
          ++ (tokenize "é 'a':U").map (·.behind 2 7) := by
  have hend : EndsInLineFeed "/*\r*/\r\n" := by decide +kernel
  exact ⟨hend, tokenize_append hend⟩

end AblOutline
