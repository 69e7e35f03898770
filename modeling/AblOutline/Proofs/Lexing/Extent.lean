/-
Lexemes and what comes after them. A lexeme that ends before its text does is
the same when the text is longer, where the text ends with a line break: what
goes on past a line break is a comment, a string or braces, and those only
reach to the end of the text when nothing closes them.

So a text may be cut after a line break that is a token of its own, and each
half read by itself. `Lexeme.read_append` is what that rests on.
-/
import AblOutline.Token.Lexer

namespace AblOutline.Lexeme

-- ========================================================== line breaks

/-- A character that breaks the line. -/
def IsBreak (c : Char) : Prop := c = '\r' ∨ c = '\n'

instance (c : Char) : Decidable (IsBreak c) :=
  inferInstanceAs (Decidable (c = '\r' ∨ c = '\n'))

/-- The text ends with a line break. -/
def EndsBreak (cs : List Char) : Prop :=
  ∃ front c, cs = front ++ [c] ∧ IsBreak c

variable {c d : Char} {rest more b : List Char} {p : Char → Bool}

theorem EndsBreak.ne_nil (h : EndsBreak rest) : rest ≠ [] := by
  obtain ⟨front, c, rfl, -⟩ := h
  simp

/-- A text whose first character breaks no line goes on to a break. -/
theorem EndsBreak.tail (h : EndsBreak (c :: rest)) (hc : ¬ IsBreak c) :
    EndsBreak rest := by
  obtain ⟨front, d, he, hd⟩ := h
  cases front with
  | nil =>
      obtain ⟨rfl, -⟩ := List.cons.inj he
      exact absurd hd hc
  | cons x front =>
      obtain ⟨rfl, rfl⟩ := List.cons.inj he
      exact ⟨front, d, rfl, hd⟩

theorem EndsBreak.drop (h : EndsBreak rest) {n : Nat} (hn : n < rest.length) :
    EndsBreak (rest.drop n) := by
  obtain ⟨front, d, rfl, hd⟩ := h
  rw [List.length_append, List.length_singleton] at hn
  refine ⟨front.drop n, d, ?_, hd⟩
  rw [List.drop_append_of_le_length (by omega)]

-- ============================================================== leading

theorem leading_append (h : leading p rest < rest.length) :
    leading p (rest ++ b) = leading p rest := by
  unfold leading at h ⊢
  rw [List.takeWhile_append, if_neg (Nat.ne_of_lt h)]

/-- Characters of a sort that no line break is of stop before the break. -/
theorem leading_lt (h : EndsBreak rest) (hp : ∀ c, IsBreak c → p c = false) :
    leading p rest < rest.length := by
  obtain ⟨front, d, rfl, hd⟩ := h
  unfold leading
  rw [List.takeWhile_append]
  split
  · rw [List.takeWhile_cons_of_neg (by simp [hp d hd])]
    simp
  · have := (List.takeWhile_sublist p (l := front)).length_le
    simp only [List.length_append, List.length_singleton]
    omega

theorem begins_append (h : rest ≠ []) :
    begins p (rest ++ b) = begins p rest := by
  cases rest with
  | nil => exact absurd rfl h
  | cons c rest => rfl

-- ============================================================== extents

/-- A comment that is closed. -/
theorem commentExtent_append {outer : Nat}
    (h : commentExtent outer rest < rest.length) :
    commentExtent outer (rest ++ b) = commentExtent outer rest := by
  fun_induction commentExtent outer rest with
  | case1 outer rest ih =>
      rw [List.length_cons, List.length_cons] at h
      simp only [List.cons_append, commentExtent, ih (by omega)]
  | case2 tail => rfl
  | case3 outer rest ih =>
      rw [List.length_cons, List.length_cons] at h
      simp only [List.cons_append, commentExtent, ih (by omega)]
  | case4 outer c rest hopen hzero hclose ih =>
      rw [List.length_cons] at h
      cases rest with
      | nil => simp [commentExtent] at h
      | cons d rest =>
          rw [List.cons_append, commentExtent, ih (by omega)]
          · intro more hc he
            exact hopen rest hc (by rw [(List.cons.inj he).1])
          · intro more ho hc he
            exact hzero rest ho hc (by rw [(List.cons.inj he).1])
          · intro o more ho hc he
            exact hclose o rest ho hc (by rw [(List.cons.inj he).1])
  | case5 => cases h

/-- A string that is closed. -/
theorem stringExtent_append {quote : Char}
    (h : stringExtent quote rest < rest.length) :
    stringExtent quote (rest ++ b) = stringExtent quote rest := by
  fun_induction stringExtent quote rest with
  | case1 x rest ih =>
      rw [List.length_cons, List.length_cons] at h
      simp only [List.cons_append, stringExtent, ih (by omega)]
  | case2 rest hne ih =>
      rw [List.length_cons, List.length_cons] at h
      rw [List.cons_append, List.cons_append, stringExtent, if_pos rfl,
        if_pos rfl, ih (by omega)]
      exact hne
  | case3 d rest hd hne =>
      rw [List.cons_append, List.cons_append, stringExtent, if_pos rfl,
        if_neg hd]
      exact hne
  | case4 c d rest hne hc ih =>
      rw [List.length_cons] at h
      rw [List.cons_append, List.cons_append, stringExtent, if_neg hc,
        ← List.cons_append, ih (by omega)]
      exact hne
  | case5 c => exact absurd h (Nat.lt_irrefl 1)
  | case6 => cases h

theorem braceExtent_none (outer : Nat) (c : Char) (rest : List Char) :
    braceExtent outer none (c :: rest)
      = if c = '"' ∨ c = '\x27' then braceExtent outer (some c) rest + 1
        else if c = '\x7b' then braceExtent (outer + 1) none rest + 1
        else if c = '\x7d' then
          match outer with
          | 0 => 1
          | outer + 1 => braceExtent outer none rest + 1
        else braceExtent outer none rest + 1 := by
  cases outer <;> rfl

/-- Braces that are closed. -/
theorem braceExtent_append {outer : Nat} {quote : Option Char}
    (h : braceExtent outer quote rest < rest.length) :
    braceExtent outer quote (rest ++ b) = braceExtent outer quote rest := by
  fun_induction braceExtent outer quote rest with
  | case1 outer quote c rest ih =>
      rw [List.length_cons, List.length_cons] at h
      simp only [List.cons_append, braceExtent, ih (by omega)]
  | case2 outer quote c rest hne ih =>
      rw [List.length_cons] at h
      cases rest with
      | nil => simp [braceExtent] at h
      | cons d rest =>
          rw [List.cons_append, braceExtent, ih (by omega)]
          intro x more hc he
          exact hne d rest hc rfl
  | case3 outer c rest hc ih =>
      rw [List.length_cons] at h
      rw [List.cons_append, braceExtent_none, if_pos hc, ih (by omega)]
  | case4 outer rest hc ih =>
      rw [List.length_cons] at h
      rw [List.cons_append, braceExtent_none, if_neg hc, if_pos rfl,
        ih (by omega)]
  | case5 rest hc hopen =>
      rw [List.cons_append, braceExtent_none, if_neg hc, if_neg hopen,
        if_pos rfl]
  | case6 rest outer hc hopen ih =>
      rw [List.length_cons] at h
      rw [List.cons_append, braceExtent_none, if_neg hc, if_neg hopen,
        if_pos rfl]
      show braceExtent outer none (rest ++ b) + 1 = _
      rw [ih (by omega)]
  | case7 outer c rest hc hopen hclose ih =>
      rw [List.length_cons] at h
      rw [List.cons_append, braceExtent_none, if_neg hc, if_neg hopen,
        if_neg hclose, ih (by omega)]
  | case8 => cases h

theorem isNamePart_of_isBreak (h : IsBreak c) : isNamePart c = false := by
  rcases h with rfl | rfl <;> decide

theorem not_isBreak_dot : ¬ IsBreak '.' := by decide

/-- A word before a line break. -/
theorem wordExtent_append (h : EndsBreak rest) :
    wordExtent (rest ++ b) = wordExtent rest := by
  fun_induction wordExtent rest with
  | case1 c rest hc ih =>
      have hname : ¬ IsBreak c := fun hbr => by
        rw [isNamePart_of_isBreak hbr] at hc
        cases hc
      have hrest := (h.tail not_isBreak_dot).tail hname
      rw [List.cons_append, List.cons_append, wordExtent, if_pos hc, ih hrest]
  | case2 c rest hc =>
      rw [List.cons_append, List.cons_append, wordExtent, if_neg hc]
  | case3 c rest hdot hc ih =>
      have hname : ¬ IsBreak c := fun hbr => by
        rw [isNamePart_of_isBreak hbr] at hc
        cases hc
      have hrest := h.tail hname
      rw [List.cons_append, wordExtent, if_pos hc, ih hrest]
      intro d more hcd he
      -- a dot is no name part
      rw [hcd] at hc
      cases hc
  | case4 c rest hdot hc =>
      rw [List.cons_append, wordExtent, if_neg hc]
      intro d more hcd he
      rw [hcd] at h
      obtain ⟨e, tail, rfl⟩ :=
        List.exists_cons_of_ne_nil (h.tail not_isBreak_dot).ne_nil
      exact hdot e tail hcd rfl
  | case5 => exact absurd rfl h.ne_nil

theorem isDigit_of_isBreak (h : IsBreak c) : c.isDigit = false := by
  rcases h with rfl | rfl <;> decide

/-- The digits of a number, and the places after the dot. -/
theorem decimal_append (h : EndsBreak rest) :
    (match (rest ++ b).drop (leading Char.isDigit (rest ++ b)) with
      | '.' :: more =>
        if begins Char.isDigit more then
          leading Char.isDigit (rest ++ b) + 1 + leading Char.isDigit more
        else leading Char.isDigit (rest ++ b)
      | _ => leading Char.isDigit (rest ++ b))
    = (match rest.drop (leading Char.isDigit rest) with
      | '.' :: more =>
        if begins Char.isDigit more then
          leading Char.isDigit rest + 1 + leading Char.isDigit more
        else leading Char.isDigit rest
      | _ => leading Char.isDigit rest) := by
  have hlt := leading_lt h fun _ => isDigit_of_isBreak
  have hdrop := h.drop hlt
  rw [leading_append hlt, List.drop_append_of_le_length (Nat.le_of_lt hlt)]
  obtain ⟨c, tail, htail⟩ := List.exists_cons_of_ne_nil hdrop.ne_nil
  rw [htail] at hdrop ⊢
  by_cases hc : c = '.'
  · subst hc
    have hends := hdrop.tail not_isBreak_dot
    rw [List.cons_append]
    show (if begins Char.isDigit (tail ++ b) then _ else _) = _
    rw [begins_append hends.ne_nil,
      leading_append (leading_lt hends fun _ => isDigit_of_isBreak)]
    rfl
  · rw [List.cons_append]
    simp [hc]

theorem isHexDigit_of_isBreak (h : IsBreak c) : isHexDigit c = false := by
  rcases h with rfl | rfl <;> decide

/-- A number before a line break. -/
theorem numberExtent_append (h : EndsBreak rest) :
    numberExtent c (rest ++ b) = numberExtent c rest := by
  obtain ⟨d, more, rfl⟩ := List.exists_cons_of_ne_nil h.ne_nil
  have hhex : ∀ {x : Char}, ¬ IsBreak x → EndsBreak (x :: more) →
      (if begins isHexDigit (more ++ b) then
        leading isHexDigit (more ++ b) + 1 else 0)
      = if begins isHexDigit more then leading isHexDigit more + 1 else 0 := by
    intro x hx hends
    have hmore := hends.tail hx
    rw [begins_append hmore.ne_nil,
      leading_append (leading_lt hmore fun _ => isHexDigit_of_isBreak)]
  by_cases hc : c = '0' ∧ (d = 'x' ∨ d = 'X')
  · obtain ⟨rfl, rfl | rfl⟩ := hc
    · exact hhex (by decide) h
    · exact hhex (by decide) h
  · have hplain : ∀ tail, numberExtent c (d :: tail)
        = (match (d :: tail).drop (leading Char.isDigit (d :: tail)) with
          | '.' :: more =>
            if begins Char.isDigit more then
              leading Char.isDigit (d :: tail) + 1
                + leading Char.isDigit more
            else leading Char.isDigit (d :: tail)
          | _ => leading Char.isDigit (d :: tail)) := by
      intro tail
      unfold numberExtent
      split
      · rename_i he
        exact absurd ⟨rfl, Or.inl (List.cons.inj he).1⟩ hc
      · rename_i he
        exact absurd ⟨rfl, Or.inr (List.cons.inj he).1⟩ hc
      · rfl
    rw [List.cons_append, hplain, hplain, ← List.cons_append,
      decimal_append h]

-- ================================================================ forms

theorem ofBrace_append (hne : rest ≠ [])
    (h : (ofBrace rest).extent < rest.length) :
    ofBrace (rest ++ b) = ofBrace rest := by
  have hbrace : braceExtent 0 none rest < rest.length := h
  unfold ofBrace
  rw [begins_append hne, braceExtent_append hbrace]

theorem ofSlash_append (hne : rest ≠ [])
    (h : (ofSlash rest).extent < rest.length) :
    ofSlash (rest ++ b) = ofSlash rest := by
  obtain ⟨d, more, rfl⟩ := List.exists_cons_of_ne_nil hne
  by_cases hslash : d = '/'
  · subst hslash
    have hlt : leading isInline more < more.length := Nat.lt_of_succ_lt_succ h
    show Lexeme.mk _ (leading isInline (more ++ b) + 1) = _
    rw [leading_append hlt]
    rfl
  · by_cases hstar : d = '*'
    · subst hstar
      have hlt : commentExtent 0 more < more.length := Nat.lt_of_succ_lt_succ h
      show Lexeme.mk _ (commentExtent 0 (more ++ b) + 1) = _
      rw [commentExtent_append hlt]
      rfl
    · simp [ofSlash, hslash, hstar, begins]

theorem ofDollar_append (hne : rest ≠ [])
    (h : (ofDollar rest).extent < rest.length) :
    ofDollar (rest ++ b) = ofDollar rest := by
  unfold ofDollar at h ⊢
  rw [begins_append hne]
  cases hstart : begins isNameStart rest with
  | false => rfl
  | true =>
      rw [hstart, if_pos rfl] at h
      have hlt : leading isPlain rest < rest.length := by
        dsimp only at h
        split at h
        · exact Nat.lt_of_succ_lt h
        · exact h
      have hdrop : rest.drop (leading isPlain rest) ≠ [] := by
        rw [Ne, List.drop_eq_nil_iff]
        omega
      dsimp only
      rw [leading_append hlt, List.drop_append_of_le_length (Nat.le_of_lt hlt),
        begins_append hdrop]

theorem ofMark_append (hne : rest ≠ []) :
    ofMark c (rest ++ b) = ofMark c rest := by
  unfold ofMark
  rw [begins_append hne]

/-- The lexeme that a character begins, before a line break that is no part
of it. -/
theorem first_append (hends : EndsBreak rest)
    (h : (first c rest).extent < rest.length) :
    first c (rest ++ b) = first c rest := by
  have hne := hends.ne_nil
  unfold first at h ⊢
  rw [begins_append hne, begins_append hne, begins_append hne]
  by_cases h1 : isGap c = true
  · rw [if_pos h1] at h
    rw [if_pos h1, if_pos h1, leading_append h]
  rw [if_neg h1] at h
  rw [if_neg h1, if_neg h1]
  by_cases h2 : c = '\r'
  · rw [if_pos h2, if_pos h2]
  rw [if_neg h2] at h
  rw [if_neg h2, if_neg h2]
  by_cases h3 : c = '\n'
  · rw [if_pos h3, if_pos h3]
  rw [if_neg h3] at h
  rw [if_neg h3, if_neg h3]
  by_cases h4 : isNameStart c = true
  · rw [if_pos h4, if_pos h4, wordExtent_append hends]
  rw [if_neg h4] at h
  rw [if_neg h4, if_neg h4]
  by_cases h5 : c.isDigit = true
  · rw [if_pos h5, if_pos h5, numberExtent_append hends]
  rw [if_neg h5] at h
  rw [if_neg h5, if_neg h5]
  by_cases h6 : c = '"' ∨ c = '\x27'
  · rw [if_pos h6] at h
    rw [if_pos h6, if_pos h6, stringExtent_append h]
  rw [if_neg h6] at h
  rw [if_neg h6, if_neg h6]
  by_cases h7 : c = '\x7b'
  · rw [if_pos h7] at h
    rw [if_pos h7, if_pos h7, ofBrace_append hne h]
  rw [if_neg h7] at h
  rw [if_neg h7, if_neg h7]
  by_cases h8 : c = '/'
  · rw [if_pos h8] at h
    rw [if_pos h8, if_pos h8, ofSlash_append hne h]
  rw [if_neg h8] at h
  rw [if_neg h8, if_neg h8]
  by_cases h9 : c = '$'
  · rw [if_pos h9] at h
    rw [if_pos h9, if_pos h9, ofDollar_append hne h]
  rw [if_neg h9] at h
  rw [if_neg h9, if_neg h9]
  by_cases h10 : c = '&' ∧ begins Char.isAlpha rest = true
  · rw [if_pos h10] at h
    rw [if_pos h10, if_pos h10, leading_append h]
  rw [if_neg h10] at h
  rw [if_neg h10, if_neg h10]
  by_cases h11 : c = '.' ∧ begins Char.isDigit rest = true
  · rw [if_pos h11] at h
    rw [if_pos h11, if_pos h11, leading_append h]
  rw [if_neg h11] at h
  rw [if_neg h11, if_neg h11]
  by_cases h12 : isMark c = true
  · rw [if_pos h12, if_pos h12, ofMark_append hne]
  rw [if_neg h12] at h
  rw [if_neg h12, if_neg h12]
  by_cases h13 : isForeign c = true
  · rw [if_pos h13] at h
    rw [if_pos h13, if_pos h13, leading_append h]
  · rw [if_neg h13, if_neg h13]

/-- The same after any other token. -/
theorem inContext_append {previous : Option TokenKind}
    (hends : EndsBreak rest)
    (h : ((first c rest).inContext previous c rest).extent < rest.length) :
    (first c (rest ++ b)).inContext previous c (rest ++ b)
      = (first c rest).inContext previous c rest := by
  have hne := hends.ne_nil
  have hfirst : (first c rest).extent < rest.length := by
    by_cases hl : first c rest = ⟨.symbol, 0⟩
    · rw [hl]
      exact List.length_pos_iff.2 hne
    · unfold inContext at h
      rw [if_neg hl] at h
      exact h
  have hstop : endsStatement (rest ++ b) = endsStatement rest := by
    obtain ⟨d, more, rfl⟩ := List.exists_cons_of_ne_nil hne
    rfl
  rw [first_append hends hfirst]
  unfold inContext at h ⊢
  rw [begins_append hne, hstop]
  by_cases hl : first c rest = ⟨.symbol, 0⟩
  · rw [if_pos hl] at h
    rw [if_pos hl, if_pos hl]
    by_cases hd : c = ':' ∧ previous = some .string
        ∧ begins Char.isAlphanum rest = true
    · rw [if_pos hd] at h
      rw [if_pos hd, if_pos hd, leading_append h]
    · rw [if_neg hd, if_neg hd]
  · rw [if_neg hl, if_neg hl]

end AblOutline.Lexeme
