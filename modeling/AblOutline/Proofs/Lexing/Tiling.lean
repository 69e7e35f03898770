/-
The tokens of a text tile it. They follow one another without a gap from the
first byte to the last, each with the text of its bytes, and the mark of the
end comes after all of them. The places are counted token by token. This comes
to the same as one count over all that was read before (`past_of_append`),
because no token ends between a CR and its LF. `tokenize_tiles` puts it
together: a token of a text is a piece of it, in the place after the pieces
before it (`tokenize_split`).
-/
import AblOutline.Proofs.Lexing.Lines
import Mathlib.Data.List.DropRight

namespace AblOutline

-- ================================================================ columns

/-- What stands after the last line break of a text: all of it when it has
none. -/
def lastLine (cs : List Char) : List Char :=
  cs.rtakeWhile fun c => !decide (Lexeme.IsBreak c)

theorem lastLine_eq_self {cs : List Char} :
    lastLine cs = cs ↔ ∀ c ∈ cs, ¬ Lexeme.IsBreak c := by
  rw [lastLine, List.rtakeWhile_eq_self_iff]
  simp

theorem lastLine_cons (c : Char) (cs : List Char) :
    lastLine (c :: cs)
      = if lastLine cs = cs ∧ ¬ Lexeme.IsBreak c then c :: cs
        else lastLine cs := by
  rw [lastLine, List.rtakeWhile, List.reverse_cons, List.takeWhile_append]
  have hlength : (cs.reverse.takeWhile fun c =>
      !decide (Lexeme.IsBreak c)).length = cs.reverse.length
      ↔ lastLine cs = cs := by
    rw [lastLine, List.rtakeWhile, List.reverse_eq_iff]
    exact ⟨(List.takeWhile_prefix _).eq_of_length, congrArg List.length⟩
  by_cases hself : lastLine cs = cs
  · rw [if_pos (hlength.2 hself)]
    by_cases hc : Lexeme.IsBreak c
    · rw [if_neg fun h => h.2 hc, hself, List.takeWhile_cons_of_neg (by simpa)]
      simp
    · rw [if_pos ⟨hself, hc⟩, List.takeWhile_cons_of_pos (by simpa)]
      simp
  · rw [if_neg (mt hlength.1 hself), if_neg fun h => hself h.1]
    rfl

/-- A text without a line break goes on in the line where it starts; any other
one has its last line start in the first column. -/
theorem after_column_eq (p : Position) (cs : List Char) :
    (p.after cs).column
      = (if lastLine cs = cs then p.column else 0) + (lastLine cs).length := by
  have hbreak : ∀ {c : Char} (cs : List Char), Lexeme.IsBreak c →
      lastLine (c :: cs) = lastLine cs ∧ lastLine (c :: cs) ≠ c :: cs := by
    intro c cs hc
    refine ⟨by rw [lastLine_cons, if_neg fun h => h.2 hc], fun h => ?_⟩
    exact lastLine_eq_self.1 h c List.mem_cons_self hc
  -- after a line break it does not matter where the line began
  have hline : ∀ {c : Char} {q : Position} {cs : List Char},
      Lexeme.IsBreak c → (q.nextLine.after cs).column
          = (if lastLine cs = cs then 0 else 0) + (lastLine cs).length →
      (q.nextLine.after cs).column
        = (if lastLine (c :: cs) = c :: cs then q.column else 0)
          + (lastLine (c :: cs)).length := by
    intro c q cs hc ih
    obtain ⟨hsame, hne⟩ := hbreak cs hc
    rw [ih, ite_self, if_neg hne, hsame]
  fun_induction Position.after p cs with
  | case1 p => rfl
  | case2 p rest ih =>
      have hlf := hline (Or.inr rfl : Lexeme.IsBreak '\n') ih
      obtain ⟨hsame, hne⟩ := hbreak ('\n' :: rest)
        (Or.inl rfl : Lexeme.IsBreak '\r')
      obtain ⟨-, hrest⟩ := hbreak rest (Or.inr rfl : Lexeme.IsBreak '\n')
      rw [hlf, if_neg hrest, if_neg hne, hsame]
  | case3 p c rest hne hc ih => exact hline hc ih
  | case4 p c rest hne hc ih =>
      by_cases hself : lastLine rest = rest
      · have hcons : lastLine (c :: rest) = c :: rest := by
          rw [lastLine_cons, if_pos ⟨hself, hc⟩]
        rw [ih, hcons, if_pos hself, if_pos rfl, hself, List.length_cons]
        show p.column + 1 + _ = _
        omega
      · have hcons : lastLine (c :: rest) = lastLine rest := by
          rw [lastLine_cons, if_neg fun h => hself h.1]
        have hne : lastLine (c :: rest) ≠ c :: rest := fun h =>
          hself (lastLine_eq_self.2 fun d hd =>
            lastLine_eq_self.1 h d (List.mem_cons_of_mem _ hd))
        rw [ih, if_neg hself, if_neg hne, hcons]

/-- The place after a text: as many lines on as it breaks, and as many columns
as its last line has characters. -/
theorem origin_after (cs : List Char) :
    Position.origin.after cs = ⟨lineBreaks cs, (lastLine cs).length⟩ := by
  have hline := after_line_eq .origin cs
  have hcolumn := after_column_eq .origin cs
  rw [show Position.origin.column = 0 from rfl, ite_self, Nat.zero_add]
    at hcolumn
  rw [show Position.origin.line = 0 from rfl, Nat.zero_add] at hline
  rw [← hline, ← hcolumn]

-- ================================================================= pieces

section Pieces

variable {start : Position} {offset : Nat} {ps : List Piece}

theorem byteCount_eq (cs : List Char) :
    Token.byteCount cs = (String.ofList cs).utf8ByteSize := by
  induction cs with
  | nil => rfl
  | cons c cs ih =>
      rw [Token.byteCount, ih, ← List.singleton_append, String.ofList_append,
        String.utf8ByteSize_append, ← String.singleton_eq_ofList,
        String.utf8ByteSize_singleton]

/-- The texts of some tokens, one after the other. -/
def joinText (ts : List Token) : String := String.join (ts.map (·.text))

theorem joinText_append (ts us : List Token) :
    joinText (ts ++ us) = joinText ts ++ joinText us := by
  rw [joinText, List.map_append, String.join_append]
  rfl

theorem joinText_cons (t : Token) (ts : List Token) :
    joinText (t :: ts) = t.text ++ joinText ts :=
  String.join_cons

theorem joinText_tokensFrom :
    joinText (tokensFrom start offset ps) = String.ofList (charsOf ps) := by
  induction ps generalizing start offset with
  | nil => rfl
  | cons p ps ih =>
      rw [tokensFrom, joinText_cons, ih]
      exact String.ofList_append.symm

theorem bytesOf_eq (ps : List Piece) :
    bytesOf ps = (String.ofList (charsOf ps)).utf8ByteSize := by
  induction ps with
  | nil => rfl
  | cons p ps ih =>
      show Token.byteCount p.chars + bytesOf ps = _
      rw [ih, byteCount_eq, ← String.utf8ByteSize_append,
        ← String.ofList_append]
      rfl

/-- A token of some pieces is one of them, in the place after those before
it. -/
theorem tokensFrom_split {before after : List Token} {t : Token}
    (h : tokensFrom start offset ps = before ++ t :: after) :
    ∃ ps₁ p ps₂, ps = ps₁ ++ p :: ps₂
      ∧ before = tokensFrom start offset ps₁
      ∧ t = p.token (start.past ps₁) (offset + bytesOf ps₁) := by
  induction before generalizing start offset ps with
  | nil =>
      cases ps with
      | nil => cases h
      | cons p ps =>
          obtain ⟨rfl, -⟩ := List.cons.inj h
          exact ⟨[], p, ps, rfl, rfl, rfl⟩
  | cons b before ih =>
      cases ps with
      | nil => cases h
      | cons p ps =>
          obtain ⟨rfl, hrest⟩ := List.cons.inj h
          obtain ⟨ps₁, q, ps₂, rfl, rfl, rfl⟩ := ih hrest
          refine ⟨p :: ps₁, q, ps₂, rfl, rfl, ?_⟩
          rw [Nat.add_assoc]
          rfl

theorem lexFrom_chars_ne_nil {previous : Option TokenKind} {cs : List Char}
    {p : Piece} (h : p ∈ lexFrom previous cs) : p.chars ≠ [] := by
  fun_induction lexFrom previous cs with
  | case1 => cases h
  | case2 previous c rest lexeme ih =>
      rcases List.mem_cons.1 h with rfl | h
      · exact List.cons_ne_nil _ _
      · exact ih h

end Pieces

-- ================================================================= places

/-- A token stands after a text: its bytes and its place come right after
those of the text. -/
structure StandsAfter (read : String) (t : Token) : Prop where
  range : t.range = ⟨read.utf8ByteSize, (read ++ t.text).utf8ByteSize⟩
  start : t.start = Position.origin.afterText read
  stop : t.span.stop = Position.origin.afterText (read ++ t.text)

/-- Every token of a text stands after the text of those before it. -/
theorem tokenize_split {text : String} {before after : List Token} {t : Token}
    (h : tokenize text = before ++ t :: after) :
    StandsAfter (joinText before) t := by
  have hplace : ∀ ps₁ ps₂, lex text.toList = ps₁ ++ ps₂ →
      Position.origin.past ps₁
        = Position.origin.afterText (String.ofList (charsOf ps₁)) := by
    intro ps₁ ps₂ hlex
    rw [Position.afterText, String.toList_ofList]
    exact past_of_append hlex .origin
  rw [tokenize_eq] at h
  rcases List.eq_nil_or_concat after with rfl | ⟨rest, mark, rfl⟩
  · -- the end mark
    obtain ⟨rfl, hmark⟩ := List.append_inj' h rfl
    obtain ⟨rfl, -⟩ := List.cons.inj hmark
    have hend := hplace (lex text.toList) [] (List.append_nil _).symm
    rw [joinText_tokensFrom, hend, bytesOf_eq]
    refine ⟨?_, rfl, ?_⟩
    · show (⟨_, _⟩ : ByteRange) = ⟨_, (_ ++ "").utf8ByteSize⟩
      rw [String.append_empty]
    · show (Position.origin.afterText _).after [] = Position.afterText _ (_ ++ "")
      rw [String.append_empty]
      rfl
  · rw [List.concat_eq_append, ← List.cons_append, ← List.append_assoc] at h
    obtain ⟨hfront, -⟩ := List.append_inj' h rfl
    obtain ⟨ps₁, p, ps₂, hlex, rfl, rfl⟩ := tokensFrom_split hfront
    have hstart := hplace ps₁ (p :: ps₂) hlex
    have hstop := hplace (ps₁ ++ [p]) ps₂ (by rw [hlex, List.append_assoc]; rfl)
    have hchars : String.ofList (charsOf (ps₁ ++ [p]))
        = String.ofList (charsOf ps₁) ++ p.text := by
      rw [charsOf, List.flatMap_append, List.flatMap_singleton,
        String.ofList_append]
      rfl
    rw [joinText_tokensFrom, bytesOf_eq]
    refine ⟨?_, hstart, ?_⟩
    · rw [String.utf8ByteSize_append]
      show (⟨0 + _, 0 + _ + Token.byteCount p.chars⟩ : ByteRange) = ⟨_, _⟩
      rw [Nat.zero_add, byteCount_eq]
      rfl
    · show (Position.origin.past ps₁).after (String.ofList p.chars).toList
        = Position.origin.afterText (_ ++ p.text)
      rw [String.toList_ofList, ← hchars, ← hstop, past_append]
      rfl

-- ================================================================= tiling

/-- One token ends where another begins. -/
structure Touches (t u : Token) : Prop where
  range : t.range.stop = u.range.start
  span : t.span.stop = u.start

/-- A token is made of the bytes of its range in a text, which are whole
characters. -/
structure CutFrom (text : String) (t : Token) : Prop where
  ordered : t.range.start ≤ t.range.stop
  bytes : text.toByteArray.extract t.range.start t.range.stop
    = t.text.toByteArray
  start : String.Pos.Raw.IsValid text ⟨t.range.start⟩
  stop : String.Pos.Raw.IsValid text ⟨t.range.stop⟩

/-- Tokens that tile a text. -/
structure Tiles (text : String) (ts : List Token) : Prop where
  /-- The last token marks the end and has no text, each of the others has
  some and is no such mark. -/
  ends : ∃ front mark, ts = front ++ [mark]
    ∧ mark.isEof = true ∧ mark.text = ""
    ∧ ∀ t ∈ front, t.isEof = false ∧ t.text ≠ ""
  joined : joinText ts = text
  cut : ∀ t ∈ ts, CutFrom text t
  first : ts.head?.map (·.range.start) = some 0
  last : ts.getLast?.map (·.range.stop) = some text.utf8ByteSize
  touching : ts.IsChain Touches
  /-- The place of a token is counted over all that was read before it. -/
  placed : ∀ before t after, ts = before ++ t :: after →
    t.range.start = (joinText before).utf8ByteSize
      ∧ t.start = Position.origin.afterText (joinText before)
      ∧ t.start.line = lineBreaks (joinText before).toList
      ∧ t.start.column = (lastLine (joinText before).toList).length

theorem StandsAfter.cutFrom {read rest : String} {t : Token}
    (h : StandsAfter read t) : CutFrom (read ++ t.text ++ rest) t := by
  have hvalid : ∀ {s u : String},
      String.Pos.Raw.IsValid (s ++ u) ⟨s.utf8ByteSize⟩ := by
    intro s u
    exact String.Pos.Raw.isValid_rawEndPos.append_right u
  refine ⟨?_, ?_, ?_, ?_⟩
  · rw [h.range, String.utf8ByteSize_append]
    exact Nat.le_add_right ..
  · have hlength : ((t.text ++ rest).toByteArray).extract 0 t.text.utf8ByteSize
        = t.text.toByteArray := by
      rw [String.toByteArray_append]
      exact ByteArray.extract_append_eq_left (String.size_toByteArray).symm
    rw [h.range, String.append_assoc, String.toByteArray_append,
      String.utf8ByteSize_append, ← hlength]
    exact ByteArray.extract_append_size_add' (i := 0)
      (String.size_toByteArray).symm
  · rw [h.range, String.append_assoc]
    exact hvalid
  · rw [h.range]
    exact hvalid

theorem joinText_tokenize (text : String) : joinText (tokenize text) = text := by
  rw [tokenize_eq, joinText_append, joinText_tokensFrom, lex, charsOf_lexFrom,
    String.ofList_toList]
  exact String.append_empty

/-- Each token of a text ends where the next one begins. -/
theorem tokenize_touching (text : String) :
    (tokenize text).IsChain Touches := by
  refine List.isChain_iff_forall_rel_of_append_cons_cons.2 ?_
  intro t u before after h
  have hthis := tokenize_split h
  have hnext := @tokenize_split text (before ++ [t]) after u
    (by rw [h, List.append_assoc]; rfl)
  have htext : joinText (before ++ [t]) = joinText before ++ t.text := by
    rw [joinText_append, joinText_cons]
    exact congrArg (joinText before ++ ·) String.append_empty
  rw [htext] at hnext
  refine ⟨?_, ?_⟩
  · rw [hthis.range, hnext.range]
  · rw [hthis.stop, hnext.start]

/-- The tokens of every text tile it. -/
theorem tokenize_tiles (text : String) : Tiles text (tokenize text) := by
  have hcut : ∀ before t after, tokenize text = before ++ t :: after →
      text = joinText before ++ t.text ++ joinText after := by
    intro before t after h
    rw [← joinText_tokenize text, h, joinText_append, joinText_cons,
      String.append_assoc]
  refine ⟨?_, joinText_tokenize text, ?_, ?_, ?_, ?_, ?_⟩
  · refine ⟨_, _, tokenize_eq text, rfl, rfl, fun t ht => ⟨?_, ?_⟩⟩
    · exact beq_eq_false_iff_ne.2 (lexFrom_kind_ne_eof (mem_tokensFrom ht).1)
    · intro htext
      refine lexFrom_chars_ne_nil (mem_tokensFrom ht).1 ?_
      show t.text.toList = []
      rw [htext]
      rfl
  · intro t ht
    obtain ⟨before, after, h⟩ := List.append_of_mem ht
    rw [hcut before t after h]
    exact (tokenize_split h).cutFrom
  · cases h : tokenize text with
    | nil =>
        rw [tokenize_eq] at h
        simp at h
    | cons t rest =>
        have hstands := @tokenize_split text [] rest t h
        rw [List.head?_cons, Option.map_some, hstands.range]
        rfl
  · have h := tokenize_eq text
    have hstands := tokenize_split h
    have htext := hcut _ _ [] h
    rw [show joinText [] = "" from rfl, String.append_empty] at htext
    rw [h, List.getLast?_concat, Option.map_some, hstands.range, ← htext]
  · exact tokenize_touching text
  · intro before t after h
    have hstands := tokenize_split h
    refine ⟨by rw [hstands.range], hstands.start, ?_, ?_⟩
    · rw [hstands.start, Position.afterText, origin_after]
    · rw [hstands.start, Position.afterText, origin_after]

end AblOutline
