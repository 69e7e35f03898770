/-
Texts between quotes. A text may be written between quotes in many ways
(`Writes`): a quote is doubled or stands behind a tilde, a tilde is doubled, and
any other character stands for itself or, when it breaks no line, behind a tilde.

Three readers go over what is written, each in its own way: the lexer looks for
the quote that closes it, the quotes are taken off, and what is left is read
back. They agree (`literal_reads_back`): the literal is one token, and what it
stands for is the text that was written.
-/
import AblOutline.Condition.Value
import AblOutline.Proofs.Lexing.Rereading

namespace AblOutline

-- ================================================================= writing

/-- The first text may be written between quotes `q` as the second. -/
inductive Writes (q : Char) : List Char → List Char → Prop where
  | nil : Writes q [] []
  | tilde {s w : List Char} (h : Writes q s w) :
      Writes q ('~' :: s) ('~' :: '~' :: w)
  | doubled {s w : List Char} (h : Writes q s w) :
      Writes q (q :: s) (q :: q :: w)
  | escapedQuote {s w : List Char} (h : Writes q s w) :
      Writes q (q :: s) ('~' :: q :: w)
  | plain (c : Char) {s w : List Char} (htilde : c ≠ '~') (hq : c ≠ q)
      (h : Writes q s w) : Writes q (c :: s) (c :: w)
  | escaped (c : Char) {s w : List Char} (htilde : c ≠ '~') (hq : c ≠ q)
      (hbreak : ¬ Lexeme.IsBreak c) (h : Writes q s w) :
      Writes q (c :: s) ('~' :: c :: w)

/-- What is written, between its quotes. -/
def quoted (q : Char) (w : String) : String := String.ofList (q :: w.toList ++ [q])

/-- The only token of a text that is a string. -/
def stringToken (text : String) : Token :=
  { kind := .string, text, start := .origin, range := ⟨0, text.utf8ByteSize⟩
    owner := 0 }

section Reading

variable {q : Char} {s w : List Char}

-- ================================================================= the token

/-- What is written is closed by the quote behind it and no other. -/
theorem Writes.stringExtent (hq : q ≠ '~') (h : Writes q s w) :
    Lexeme.stringExtent q (w ++ [q]) = w.length + 1 := by
  induction h with
  | nil => simp [Lexeme.stringExtent]
  | tilde _ ih => simp [Lexeme.stringExtent, ih]
  | doubled _ ih =>
      rw [List.cons_append, List.cons_append, Lexeme.stringExtent, if_pos rfl,
        if_pos rfl, ih]
      · rfl
      · exact hq
  | escapedQuote _ ih => simp [Lexeme.stringExtent, ih]
  | plain c htilde hc h ih =>
      -- the reader looks at the next character too, at the least the last quote
      rename_i s w
      obtain ⟨d, rest, hrest⟩ : ∃ d rest, w ++ [q] = d :: rest :=
        List.exists_cons_of_ne_nil (by simp)
      rw [hrest] at ih
      rw [List.cons_append, hrest, Lexeme.stringExtent, if_neg hc, ih,
        List.length_cons]
      exact htilde
  | escaped c _ _ _ _ ih => simp [Lexeme.stringExtent, ih]

theorem first_of_quote (hq : q = '"' ∨ q = '\x27') (rest : List Char) :
    Lexeme.first q rest = ⟨.string, Lexeme.stringExtent q rest⟩ := by
  rcases hq with rfl | rfl <;> rfl

/-- A literal is one piece. -/
theorem Writes.lex (hq : q = '"' ∨ q = '\x27') (h : Writes q s w) :
    lex (q :: (w ++ [q])) = [⟨.string, q :: (w ++ [q])⟩] := by
  have htilde : q ≠ '~' := by rcases hq with rfl | rfl <;> decide
  have hfirst : (Lexeme.first q (w ++ [q])).inContext none q (w ++ [q])
      = ⟨.string, (w ++ [q]).length⟩ := by
    rw [first_of_quote hq, h.stringExtent htilde, List.length_append]
    exact if_neg nofun
  rw [AblOutline.lex, lexFrom, hfirst]
  dsimp only
  rw [List.take_length, List.drop_length, lexFrom]

-- =================================================================== its text

/-- The quotes are taken off, and no more than these. -/
theorem stripQuotes_quoted (hq : q = '"' ∨ q = '\x27') (w : List Char) :
    Token.stripQuotes (q :: (w ++ [q])) = w := by
  rw [Token.stripQuotes, if_pos hq]
  simp [Text.dropEnd, Text.dropStart]

/-- What is written is read back. -/
theorem Writes.unescape (hq : q ≠ '~') (h : Writes q s w) :
    Condition.Value.unescape q w = s := by
  induction h with
  | nil => rfl
  | tilde _ ih => simp [Condition.Value.unescape, ih]
  | doubled _ ih =>
      rw [Condition.Value.unescape, if_pos ⟨rfl, rfl⟩, ih]
      exact hq
  | escapedQuote _ ih => simp [Condition.Value.unescape, ih]
  | plain c htilde hc h ih =>
      rename_i s w
      cases w with
      | nil =>
          rw [← ih]
          simp [Condition.Value.unescape]
      | cons d w =>
          rw [Condition.Value.unescape, if_neg fun h => hc h.1, ih]
          exact htilde
  | escaped c _ _ _ _ ih => simp [Condition.Value.unescape, ih]

end Reading

/-- A text that is written between quotes is one string token, and is what
that token stands for. -/
theorem literal_reads_back {q : Char} {s w : String}
    (hq : q = '"' ∨ q = '\x27') (h : Writes q s.toList w.toList) :
    tokenize (quoted q w)
        = [stringToken (quoted q w),
          .eof (Position.origin.afterText (quoted q w)) (quoted q w).utf8ByteSize]
      ∧ (stringToken (quoted q w)).unquoted = w
      ∧ Condition.Value.ofLiteral (stringToken (quoted q w)).text = s := by
  have htilde : q ≠ '~' := by rcases hq with rfl | rfl <;> decide
  have hchars : (quoted q w).toList = q :: (w.toList ++ [q]) :=
    String.toList_ofList
  have hstrip : Token.stripQuotes (quoted q w).toList = w.toList := by
    rw [hchars, stripQuotes_quoted hq]
  refine ⟨tokenize_of_lex (t := stringToken (quoted q w)) ?_, ?_, ?_⟩
  · show lex (quoted q w).toList = [⟨.string, (quoted q w).toList⟩]
    rw [hchars, h.lex hq]
  · show String.ofList (Token.stripQuotes (quoted q w).toList) = w
    rw [hstrip, String.ofList_toList]
  · show String.ofList (Condition.Value.unescape
      ((quoted q w).toList.head?.getD '"')
      (Token.stripQuotes (quoted q w).toList)) = s
    rw [hstrip, hchars]
    show String.ofList (Condition.Value.unescape q w.toList) = s
    rw [h.unescape htilde, String.ofList_toList]

/-- Every way of writing at once: the last character is the quote itself, right
before the quote that closes. -/
theorem literal_reads_back_mixed :
    Writes '"' "a\"~é\n\"".toList "~a\"\"~~~é\n~\"".toList
      ∧ tokenize "\"~a\"\"~~~é\n~\"\""
        = [stringToken "\"~a\"\"~~~é\n~\"\"", .eof ⟨1, 3⟩ 14]
      ∧ Condition.Value.ofLiteral "\"~a\"\"~~~é\n~\"\"" = "a\"~é\n\"" := by
  have hwrites : Writes '"' "a\"~é\n\"".toList "~a\"\"~~~é\n~\"".toList :=
    .escaped 'a' (by decide) (by decide) (by decide)
      (.doubled (.tilde (.escaped 'é' (by decide) (by decide) (by decide)
        (.plain '\n' (by decide) (by decide) (.escapedQuote .nil)))))
  have hquoted : quoted '"' "~a\"\"~~~é\n~\"" = "\"~a\"\"~~~é\n~\"\"" := by
    decide +kernel
  have hend : Token.eof (Position.origin.afterText "\"~a\"\"~~~é\n~\"\"")
      "\"~a\"\"~~~é\n~\"\"".utf8ByteSize = .eof ⟨1, 3⟩ 14 := by
    decide +kernel
  obtain ⟨htokens, -, hvalue⟩ := literal_reads_back (Or.inl rfl) hwrites
  rw [hquoted] at htokens hvalue
  rw [hend] at htokens
  exact ⟨hwrites, htokens, hvalue⟩

end AblOutline
