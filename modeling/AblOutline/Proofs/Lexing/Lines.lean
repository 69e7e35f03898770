/-
The lines of a text and of its tokens. CR LF, a lone LF and a lone CR each
break a line once (`lineBreaks`). No token ends between a CR and its LF: a
string, a comment and braces end with the mark that closes them, and none of
the other tokens but a line break holds a CR at all. So the line breaks of the
tokens are those of the text: the end mark stands on the last line of the text
(`past_lex_line`), and no token stands below it (`tokenize_lines`).
-/
import AblOutline.Proofs.Lexing

namespace AblOutline

-- ============================================================ line breaks

/-- The number of line breaks of a text. -/
def lineBreaks : List Char → Nat
  | [] => 0
  | '\r' :: '\n' :: rest => lineBreaks rest + 1
  | c :: rest =>
    if c = '\r' ∨ c = '\n' then lineBreaks rest + 1 else lineBreaks rest

/-- A text goes on as many lines as it breaks. -/
theorem after_line_eq (p : Position) (cs : List Char) :
    (p.after cs).line = p.line + lineBreaks cs := by
  fun_induction Position.after p cs with
  | case1 p => rfl
  | case2 p rest ih =>
      rw [ih, lineBreaks]
      exact Nat.add_right_comm ..
  | case3 p c rest hne hc ih =>
      rw [ih, lineBreaks, if_pos hc]
      · exact Nat.add_right_comm ..
      · exact hne
  | case4 p c rest hne hc ih =>
      rw [ih, lineBreaks, if_neg hc]
      · rfl
      · exact hne

/-- Where no line break is cut in two, the place after two texts is that
after the second, from the place after the first. -/
theorem after_append {p : Position} {a b : List Char} (h : Joins a b) :
    p.after (a ++ b) = (p.after a).after b := by
  fun_induction Position.after p a with
  | case1 p => rfl
  | case2 p rest ih =>
      rw [List.cons_append, List.cons_append, Position.after]
      refine ih fun hcut => h ⟨?_, hcut.2⟩
      rw [List.getLast?_cons_cons, List.getLast?_cons, hcut.1]
      rfl
  | case3 p c rest hne hc ih =>
      rw [List.cons_append, Position.after, if_pos hc]
      · refine ih fun hcut => h ⟨?_, hcut.2⟩
        rw [List.getLast?_cons, hcut.1]
        rfl
      · intro more hr he
        cases rest with
        | nil => exact h ⟨congrArg some hr, congrArg List.head? he⟩
        | cons d rest => exact hne rest hr (by rw [(List.cons.inj he).1])
  | case4 p c rest hne hc ih =>
      rw [List.cons_append, Position.after, if_neg hc]
      · refine ih fun hcut => h ⟨?_, hcut.2⟩
        rw [List.getLast?_cons, hcut.1]
        rfl
      · intro more hr he
        exact hc (Or.inl hr)

-- =============================================================== no cut

namespace Lexeme

variable {c d : Char} {rest more : List Char} {n : Nat}

/-- A token of `c` and the first `n` of `rest` ends between a CR and its
LF. -/
def Cuts (c : Char) (rest : List Char) (n : Nat) : Prop :=
  (c :: rest)[n]? = some '\r' ∧ rest[n]? = some '\n'

theorem joins_of_not_cuts (h : ¬ Cuts c rest n) (hn : n ≤ rest.length) :
    Joins (c :: rest.take n) (rest.drop n) := by
  rintro ⟨hlast, hhead⟩
  refine h ⟨?_, ?_⟩
  · rw [List.getLast?_eq_getElem?, List.length_cons,
      List.length_take_of_le hn, Nat.add_sub_cancel, ← List.take_succ_cons,
      List.getElem?_take_of_lt (Nat.lt_succ_self n)] at hlast
    exact hlast
  · rw [List.head?_drop] at hhead
    exact hhead

theorem not_cuts_zero (hc : c ≠ '\r') : ¬ Cuts c rest 0 :=
  fun h => hc (Option.some.inj h.1)

/-- A token that reaches to the end of the text. -/
theorem not_cuts_end (h : rest.length ≤ n) : ¬ Cuts c rest n := by
  rintro ⟨-, hlf⟩
  rw [List.getElem?_eq_none h] at hlf
  cases hlf

/-- Characters of a sort that a CR is not of. -/
theorem not_cuts_leading {p : Char → Bool} (hp : p '\r' = false)
    (hc : c ≠ '\r') : ¬ Cuts c rest (leading p rest) := by
  induction rest generalizing c with
  | nil => exact not_cuts_zero hc
  | cons d rest ih =>
      unfold leading at ih ⊢
      cases hd : p d with
      | false =>
          rw [List.takeWhile_cons_of_neg (by rw [hd]; nofun)]
          exact not_cuts_zero hc
      | true =>
          rw [List.takeWhile_cons_of_pos hd]
          refine ih (c := d) fun he => ?_
          rw [he, hp] at hd
          cases hd

/-- A token that goes on after some characters. -/
theorem not_cuts_drop {k : Nat} (hdrop : rest.drop k = d :: more)
    (h : ¬ Cuts d more n) : ¬ Cuts c rest (k + 1 + n) := by
  have hlt : k < rest.length := by
    by_contra hge
    rw [List.drop_eq_nil_of_le (by omega)] at hdrop
    cases hdrop
  rintro ⟨hcr, hlf⟩
  refine h ⟨?_, ?_⟩
  · rw [← hdrop, List.getElem?_drop, ← hcr, Nat.add_right_comm,
      List.getElem?_cons_succ]
  · have htail : more = rest.drop (k + 1) := by
      rw [← List.tail_drop, hdrop]
      rfl
    rw [htail, List.getElem?_drop, hlf]

theorem not_cuts_word (hc : c ≠ '\r') : ¬ Cuts c rest (wordExtent rest) := by
  have hpart : ∀ {x : Char}, isNamePart x = true → x ≠ '\r' := by
    rintro x hx rfl
    revert hx
    decide
  fun_induction wordExtent rest generalizing c with
  | case1 d rest hd ih => exact ih (hpart hd)
  | case2 d rest hd => exact not_cuts_zero hc
  | case3 d rest hdot hd ih => exact ih (hpart hd)
  | case4 d rest hdot hd => exact not_cuts_zero hc
  | case5 => exact not_cuts_zero hc

theorem not_cuts_decimal (hc : c ≠ '\r') :
    ¬ Cuts c rest
      (match rest.drop (leading Char.isDigit rest) with
        | '.' :: more =>
          if begins Char.isDigit more then
            leading Char.isDigit rest + 1 + leading Char.isDigit more
          else leading Char.isDigit rest
        | _ => leading Char.isDigit rest) := by
  have hwhole : ¬ Cuts c rest (leading Char.isDigit rest) :=
    not_cuts_leading (by decide) hc
  split
  · rename_i more hdrop
    split
    · exact not_cuts_drop hdrop (not_cuts_leading (by decide) (by decide))
    · exact hwhole
  · exact hwhole

theorem not_cuts_number (hc : c ≠ '\r') :
    ¬ Cuts c rest (numberExtent c rest) := by
  have hhex : ∀ (x : Char) {more : List Char}, x ≠ '\r' →
      ¬ Cuts c (x :: more) (if begins isHexDigit more then
        leading isHexDigit more + 1 else 0) := by
    intro x more hx
    split
    · rw [Nat.add_comm, ← Nat.zero_add 1]
      exact not_cuts_drop rfl (not_cuts_leading (by decide) hx)
    · exact not_cuts_zero hc
  unfold numberExtent
  split
  · exact hhex 'x' (by decide)
  · exact hhex 'X' (by decide)
  · exact not_cuts_decimal hc

theorem not_cuts_string {quote : Char} (hq : quote ≠ '\r') :
    ¬ Cuts c rest (stringExtent quote rest) := by
  fun_induction stringExtent quote rest generalizing c with
  | case1 x rest ih => exact ih
  | case2 rest hne ih => exact ih
  | case3 d rest hd hne => exact fun h => hq (Option.some.inj h.1)
  | case4 x d rest hne hx ih => exact ih
  | case5 x => exact not_cuts_end (Nat.le_refl 1)
  | case6 => exact not_cuts_end (Nat.le_refl 0)

theorem not_cuts_comment {outer : Nat} :
    ¬ Cuts c rest (commentExtent outer rest) := by
  fun_induction commentExtent outer rest generalizing c with
  | case1 outer rest ih => exact ih
  | case2 rest =>
      exact fun h => absurd (Option.some.inj h.1) (by decide)
  | case3 outer rest ih => exact ih
  | case4 outer x rest hopen hzero hclose ih => exact ih
  | case5 => exact not_cuts_end (Nat.le_refl 0)

theorem not_cuts_brace {outer : Nat} {quote : Option Char} :
    ¬ Cuts c rest (braceExtent outer quote rest) := by
  fun_induction braceExtent outer quote rest generalizing c with
  | case1 outer quote x rest ih => exact ih
  | case2 outer quote x rest hne ih => exact ih
  | case3 outer x rest hx ih => exact ih
  | case4 outer rest hx ih => exact ih
  | case5 rest hx hopen =>
      exact fun h => absurd (Option.some.inj h.1) (by decide)
  | case6 rest outer hx hopen ih => exact ih
  | case7 outer x rest hx hopen hclose ih => exact ih
  | case8 => exact not_cuts_end (Nat.le_refl 0)

/-- A token of one character, or of two where a certain one follows. -/
theorem not_cuts_pair {p : Char → Bool} (hp : p '\r' = false)
    (hc : c ≠ '\r') :
    ¬ Cuts c rest (if begins p rest then 1 else 0) := by
  split
  · rename_i hnext
    rintro ⟨hcr, -⟩
    have hhead : rest.head? = some '\r' := by
      rw [← hcr, List.head?_eq_getElem?, List.getElem?_cons_succ]
    rw [begins, hhead] at hnext
    rw [show (some '\r').any p = p '\r' from rfl, hp] at hnext
    cases hnext
  · exact not_cuts_zero hc

/-- A line break takes the LF of its CR. -/
theorem not_cuts_break :
    ¬ Cuts '\r' rest (if begins (· == '\n') rest then 1 else 0) := by
  split
  · rename_i hnext
    rintro ⟨hcr, -⟩
    rw [List.getElem?_cons_succ, ← List.head?_eq_getElem?] at hcr
    rw [begins, hcr] at hnext
    cases hnext
  · rename_i hnext
    rintro ⟨-, hlf⟩
    rw [← List.head?_eq_getElem?] at hlf
    exact hnext (by rw [begins, hlf]; rfl)

theorem not_cuts_slash : ¬ Cuts '/' rest (ofSlash rest).extent := by
  unfold ofSlash
  split
  · rename_i more
    rw [Nat.add_comm, ← Nat.zero_add 1]
    exact not_cuts_drop rfl (not_cuts_leading (by decide) (by decide))
  · rename_i more
    rw [Nat.add_comm, ← Nat.zero_add 1]
    exact not_cuts_drop rfl not_cuts_comment
  · exact not_cuts_pair (by decide) (by decide)

theorem not_cuts_dollar : ¬ Cuts '$' rest (ofDollar rest).extent := by
  unfold ofDollar
  split
  · dsimp only
    split
    · rename_i hclose
      obtain ⟨d, more, hdrop⟩ : ∃ d more,
          rest.drop (leading isPlain rest) = d :: more := by
        cases hd : rest.drop (leading isPlain rest) with
        | nil =>
            rw [hd] at hclose
            cases hclose
        | cons d more => exact ⟨d, more, rfl⟩
      refine not_cuts_drop (n := 0) hdrop (not_cuts_zero ?_)
      rintro rfl
      rw [hdrop] at hclose
      cases hclose
    · exact not_cuts_leading (by decide) (by decide)
  · exact not_cuts_zero (by decide)

theorem not_cuts_ite {P : Prop} [Decidable P] {l m : Lexeme}
    (hl : P → ¬ Cuts c rest l.extent) (hm : ¬ Cuts c rest m.extent) :
    ¬ Cuts c rest (if P then l else m).extent := by
  split
  · rename_i hp
    exact hl hp
  · exact hm

/-- No token ends between a CR and its LF. -/
theorem not_cuts_first : ¬ Cuts c rest (first c rest).extent := by
  by_cases hcr : c = '\r'
  · subst hcr
    exact not_cuts_break
  have hrun : ∀ {p : Char → Bool}, p '\r' = false →
      ¬ Cuts c rest (leading p rest) := fun hp => not_cuts_leading hp hcr
  unfold first
  rw [if_neg hcr]
  refine not_cuts_ite (fun _ => hrun (by decide)) ?_
  refine not_cuts_ite (fun _ => not_cuts_zero hcr) ?_
  refine not_cuts_ite (fun _ => not_cuts_word hcr) ?_
  refine not_cuts_ite (fun _ => not_cuts_number hcr) ?_
  refine not_cuts_ite (fun _ => not_cuts_string hcr) ?_
  refine not_cuts_ite (fun _ => not_cuts_brace) ?_
  refine not_cuts_ite (fun hc => by subst hc; exact not_cuts_slash) ?_
  refine not_cuts_ite (fun hc => by subst hc; exact not_cuts_dollar) ?_
  refine not_cuts_ite (fun _ => hrun (by decide)) ?_
  refine not_cuts_ite (fun _ => hrun (by decide)) ?_
  refine not_cuts_ite (fun _ => not_cuts_pair ?_ hcr) ?_
  · simp [pairs]
  · exact not_cuts_ite (fun _ => hrun (by decide)) (not_cuts_zero hcr)

theorem not_cuts_inContext {previous : Option TokenKind} :
    ¬ Cuts c rest ((first c rest).inContext previous c rest).extent := by
  unfold inContext
  split
  · split
    · rename_i hcolon
      exact not_cuts_leading (by decide) (by rw [hcolon.1]; decide)
    split
    · rename_i hstop
      refine not_cuts_zero ?_
      rcases hstop.1 with rfl | rfl <;> decide
    · exact not_cuts_first
  · exact not_cuts_first

end Lexeme

-- ================================================================ tokens

section Tokens

variable {previous : Option TokenKind} {cs : List Char} {p : Position}
  {offset : Nat} {ps : List Piece}

/-- The place after the first pieces of a text is that after their
characters. -/
theorem past_of_append {qs : List Piece} (h : lexFrom previous cs = ps ++ qs)
    (p : Position) : p.past ps = p.after (charsOf ps) := by
  fun_induction lexFrom previous cs generalizing p ps with
  | case1 previous =>
      rw [(List.append_eq_nil_iff.1 h.symm).1]
      rfl
  | case2 previous c rest lexeme =>
      rename_i ih
      cases ps with
      | nil => rfl
      | cons x ps =>
          obtain ⟨rfl, hrest⟩ := List.cons.inj h
          have hchars : charsOf ps ++ charsOf qs = rest.drop lexeme.extent := by
            rw [← charsOf_lexFrom (some lexeme.kind) (rest.drop lexeme.extent),
              hrest]
            exact List.flatMap_append.symm
          have hjoins : Joins (c :: rest.take lexeme.extent) (charsOf ps) := by
            rintro ⟨hlast, hhead⟩
            by_cases hle : lexeme.extent ≤ rest.length
            · refine Lexeme.joins_of_not_cuts Lexeme.not_cuts_inContext hle
                ⟨hlast, ?_⟩
              rw [← hchars, List.head?_append, hhead]
              rfl
            · rw [List.drop_eq_nil_of_le (by omega)] at hchars
              rw [(List.append_eq_nil_iff.1 hchars).1] at hhead
              cases hhead
          show (p.after (c :: rest.take lexeme.extent)).past ps = _
          rw [ih hrest, ← after_append hjoins]
          rfl

/-- The tokens of a text pass as many lines as the text breaks. -/
theorem past_lexFrom (p : Position) :
    p.past (lexFrom previous cs) = p.after cs := by
  rw [past_of_append (List.append_nil _).symm, charsOf_lexFrom]

/-- The end mark of a text stands on its last line. -/
theorem past_lex_line (cs : List Char) :
    (Position.origin.past (lex cs)).line = lineBreaks cs := by
  rw [lex, past_lexFrom, after_line_eq]
  exact Nat.zero_add _

theorem line_le_after (p : Position) (cs : List Char) :
    p.line ≤ (p.after cs).line := by
  rw [after_line_eq]
  exact Nat.le_add_right ..

theorem line_le_past (p : Position) (ps : List Piece) :
    p.line ≤ (p.past ps).line := by
  induction ps generalizing p with
  | nil => exact Nat.le_refl _
  | cons x ps ih => exact Nat.le_trans (line_le_after p x.chars) (ih _)

/-- No token stands below the place after all of them. -/
theorem tokensFrom_line {t : Token} (h : t ∈ tokensFrom p offset ps) :
    t.start.line ≤ (p.past ps).line := by
  induction ps generalizing p offset with
  | nil => cases h
  | cons x ps ih =>
      rcases List.mem_cons.1 h with rfl | h
      · exact line_le_past p (x :: ps)
      · exact ih h

/-- No token stands above the place before all of them. -/
theorem line_le_of_mem_tokensFrom {t : Token}
    (h : t ∈ tokensFrom p offset ps) : p.line ≤ t.start.line := by
  induction ps generalizing p offset with
  | nil => cases h
  | cons x ps ih =>
      rcases List.mem_cons.1 h with rfl | h
      · exact Nat.le_refl _
      · exact Nat.le_trans (line_le_after p x.chars) (ih h)

theorem pairwise_tokensFrom :
    (tokensFrom p offset ps).Pairwise (·.start.line ≤ ·.start.line) := by
  induction ps generalizing p offset with
  | nil => exact .nil
  | cons x ps ih =>
      refine List.pairwise_cons.2 ⟨fun t ht => ?_, ih⟩
      exact Nat.le_trans (line_le_after p x.chars)
        (line_le_of_mem_tokensFrom ht)

/-- No token of a text stands above the one before it. -/
theorem pairwise_tokenize (text : String) :
    (tokenize text).Pairwise (·.start.line ≤ ·.start.line) := by
  rw [tokenize_eq]
  refine List.pairwise_append.2
    ⟨pairwise_tokensFrom, List.pairwise_singleton .., fun t ht u hu => ?_⟩
  rw [List.mem_singleton.1 hu]
  exact tokensFrom_line ht

/-- The tokens of a text stand on its lines; the end mark is the one token
that marks the end, and stands on the last line. -/
theorem tokenize_lines (text : String) :
    (∀ t ∈ tokenize text, t.owner = 0
        ∧ t.start.line ≤ lineBreaks text.toList)
      ∧ ∃ mark : Token, (tokenize text).filter (·.isEof) = [mark]
        ∧ mark.owner = 0 ∧ mark.start.line = lineBreaks text.toList := by
  have hpast := past_lex_line text.toList
  rw [tokenize_eq]
  refine ⟨fun t ht => ?_, Token.eof (Position.origin.past (lex text.toList))
    (bytesOf (lex text.toList)), ?_, rfl, hpast⟩
  · rcases List.mem_append.1 ht with ht | ht
    · refine ⟨(mem_tokensFrom ht).2, ?_⟩
      rw [← hpast]
      exact tokensFrom_line ht
    · rw [List.mem_singleton.1 ht]
      exact ⟨rfl, Nat.le_of_eq hpast⟩
  · have hnone : (tokensFrom .origin 0 (lex text.toList)).filter (·.isEof)
        = [] := by
      refine List.filter_eq_nil_iff.2 fun t ht heof => ?_
      exact lexFrom_kind_ne_eof (mem_tokensFrom ht).1 (eq_of_beq heof)
    rw [List.filter_append, hnone]
    rfl

end Tokens

end AblOutline
