/-
Lexemes before a comment, and before a space in its place. Two texts are
`Veiled` that say the same up to a place where the one has the slash of a
comment and the other a space:

    a b.c/* x */ + 1.
    a b.c        + 1.

A word, a number and the like end at a slash as they end at a space, and what
is closed is read no further. So a lexeme that ends before that place is the
same in both texts (`first_veiled`). Only a dot and a colon tell the two apart:
white space behind them ends a statement.
-/
import AblOutline.Proofs.Lexing.Extent

namespace AblOutline.Lexeme

-- ================================================================== veiled

/-- The second text is the first one up to a place where it has a space for a
slash. -/
inductive Veiled : List Char → List Char → Prop where
  | nil : Veiled [] []
  | veil (cs cs' : List Char) : Veiled ('/' :: cs) (' ' :: cs')
  | cons (c : Char) {cs cs' : List Char} (h : Veiled cs cs') :
      Veiled (c :: cs) (c :: cs')

/-- That place is not among the first `n` characters. -/
inductive VeiledAfter : Nat → List Char → List Char → Prop where
  | nil (n : Nat) : VeiledAfter n [] []
  | here {cs cs' : List Char} (h : Veiled cs cs') : VeiledAfter 0 cs cs'
  | cons (c : Char) {n : Nat} {cs cs' : List Char} (h : VeiledAfter n cs cs') :
      VeiledAfter (n + 1) (c :: cs) (c :: cs')

variable {n : Nat} {c d : Char} {rest rest' : List Char} {p : Char → Bool}

theorem Veiled.append (h : Veiled rest rest') (front : List Char) :
    Veiled (front ++ rest) (front ++ rest') := by
  induction front with
  | nil => exact h
  | cons c front ih => exact .cons c ih

theorem VeiledAfter.veiled (h : VeiledAfter n rest rest') :
    Veiled rest rest' := by
  induction h with
  | nil n => exact .nil
  | here h => exact h
  | cons c _ ih => exact .cons c ih

theorem VeiledAfter.of_drop (h : Veiled (rest.drop n) rest') :
    VeiledAfter n rest (rest.take n ++ rest') := by
  induction n generalizing rest with
  | zero => exact .here h
  | succ n ih =>
      cases rest with
      | nil =>
          cases h
          exact .nil _
      | cons c rest => exact .cons c (ih h)

/-- A slash and a space are alike to most questions. -/
theorem Veiled.begins_eq (h : Veiled rest rest') (hp : p '/' = p ' ') :
    begins p rest = begins p rest' := by
  cases h with
  | nil => rfl
  | veil cs cs' => exact hp
  | cons c h => rfl

theorem Veiled.head?_eq (h : Veiled rest rest')
    (hslash : rest.head? = some '/' → rest'.head? = some '/') :
    rest'.head? = rest.head? := by
  cases h with
  | nil => rfl
  | veil cs cs' => exact hslash rfl
  | cons c h => rfl

theorem Veiled.isEmpty_eq (h : Veiled rest rest') :
    rest.isEmpty = rest'.isEmpty := by
  cases h <;> rfl

-- ================================================================= leading

theorem leading_cons (p : Char → Bool) (c : Char) (cs : List Char) :
    leading p (c :: cs) = if p c then leading p cs + 1 else 0 := by
  unfold leading
  rw [List.takeWhile_cons]
  split <;> rfl

/-- What neither a slash nor a space goes on. -/
theorem Veiled.leading_eq (h : Veiled rest rest')
    (hp : p '/' = false ∧ p ' ' = false) : leading p rest = leading p rest' := by
  induction h with
  | nil => rfl
  | veil cs cs' =>
      rw [leading_cons, leading_cons, hp.1, hp.2]
      rfl
  | cons c _ ih => rw [leading_cons, leading_cons, ih]

theorem Veiled.drop_leading (h : Veiled rest rest') (hp : p '/' = false) :
    Veiled (rest.drop (leading p rest)) (rest'.drop (leading p rest)) := by
  induction h with
  | nil => exact .nil
  | veil cs cs' =>
      rw [leading_cons, hp]
      exact .veil cs cs'
  | cons c h ih =>
      rw [leading_cons]
      split
      · exact ih
      · exact .cons c h

/-- What a slash goes on, and what has ended before. -/
theorem VeiledAfter.leading_eq (h : VeiledAfter (leading p rest) rest rest')
    (hp : p '/' = true) : leading p rest' = leading p rest := by
  induction rest generalizing rest' with
  | nil =>
      cases h.veiled
      rfl
  | cons c cs ih =>
      rw [leading_cons] at h ⊢
      cases hc : p c with
      | true =>
          rw [hc, if_pos rfl] at h
          cases h with
          | cons c h => rw [leading_cons, hc, if_pos rfl, if_pos rfl, ih h]
      | false =>
          rw [hc, if_neg Bool.false_ne_true] at h
          cases h with
          | here h =>
              cases h with
              | veil cs cs' =>
                  rw [hp] at hc
                  cases hc
              | cons c h =>
                  rw [leading_cons, hc]
                  rfl

-- ================================================================= extents

theorem isNamePart_slash : isNamePart '/' = false ∧ isNamePart ' ' = false := by
  decide

/-- A word. -/
theorem Veiled.wordExtent_eq (h : Veiled rest rest') :
    wordExtent rest = wordExtent rest' := by
  fun_induction wordExtent rest generalizing rest' with
  | case1 c rest hc ih =>
      cases h with
      | cons _ h =>
          cases h with
          | veil cs cs' =>
              rw [isNamePart_slash.1] at hc
              cases hc
          | cons _ h => rw [wordExtent, if_pos hc, ih h]
  | case2 c rest hc =>
      cases h with
      | cons _ h =>
          cases h with
          | veil cs cs' =>
              rw [wordExtent, isNamePart_slash.2]
              rfl
          | cons _ h => rw [wordExtent, if_neg hc]
  | case3 c rest hdot hc ih =>
      cases h with
      | veil cs cs' =>
          rw [isNamePart_slash.1] at hc
          cases hc
      | @cons _ _ cs' h =>
          have hnodot : ∀ d more, c = '.' → cs' = d :: more → False := by
            rintro d more rfl -
            cases hc
          rw [wordExtent, if_pos hc, ih h]
          exact hnodot
  | case4 c rest hdot hc =>
      cases h with
      | veil cs cs' =>
          rw [wordExtent, isNamePart_slash.2]
          · rfl
          · exact fun _ _ h => absurd h (by decide)
      | @cons _ _ cs' h =>
          have hnodot : ∀ d more, c = '.' → cs' = d :: more → False := by
            rintro d more rfl rfl
            cases h with
            | veil cs cs' => exact hdot _ _ rfl rfl
            | cons _ h => exact hdot _ _ rfl rfl
          rw [wordExtent, if_neg hc]
          exact hnodot
  | case5 =>
      cases h
      rfl

/-- A number to base ten: its digits, and the places after a dot. -/
theorem numberExtent_decimal (hc : ¬ (c = '0' ∧ (d = 'x' ∨ d = 'X'))) :
    let whole := leading Char.isDigit (d :: rest)
    let places := (d :: rest).drop (whole + 1)
    numberExtent c (d :: rest)
      = if begins (· == '.') ((d :: rest).drop whole) && begins Char.isDigit places
        then whole + 1 + leading Char.isDigit places else whole := by
  unfold numberExtent
  split
  · rename_i he
    exact absurd ⟨rfl, Or.inl (List.cons.inj he).1⟩ hc
  · rename_i he
    exact absurd ⟨rfl, Or.inr (List.cons.inj he).1⟩ hc
  · dsimp only
    rw [← List.drop_drop]
    split
    · rename_i more he
      rw [he, List.drop_one, List.tail_cons]
      rfl
    · rename_i hdot
      refine (if_neg fun h => ?_).symm
      cases hd : (d :: rest).drop (leading Char.isDigit (d :: rest)) with
      | nil =>
          rw [hd] at h
          cases h
      | cons x more =>
          rw [hd] at h
          obtain rfl : x = '.' := eq_of_beq (Bool.and_eq_true_iff.1 h).1
          exact hdot more hd

/-- A number. -/
theorem Veiled.numberExtent_eq (h : Veiled rest rest') :
    numberExtent c rest = numberExtent c rest' := by
  have hdigit : Char.isDigit '/' = false ∧ Char.isDigit ' ' = false := by decide
  have hhex : ∀ {more more' : List Char}, Veiled more more' →
      (if begins isHexDigit more then leading isHexDigit more + 1 else 0)
        = if begins isHexDigit more' then leading isHexDigit more' + 1 else 0 := by
    intro more more' hm
    rw [hm.begins_eq (by decide), hm.leading_eq (by decide)]
  cases h with
  | nil => rfl
  | veil cs cs' =>
      have hslash : ¬ (c = '0' ∧ ('/' = 'x' ∨ '/' = 'X')) :=
        fun h => absurd h.2 (by decide)
      have hspace : ¬ (c = '0' ∧ (' ' = 'x' ∨ ' ' = 'X')) :=
        fun h => absurd h.2 (by decide)
      rw [numberExtent_decimal hslash, numberExtent_decimal hspace,
        leading_cons, leading_cons]
      rfl
  | @cons d more more' h =>
      by_cases hc : c = '0' ∧ (d = 'x' ∨ d = 'X')
      · obtain ⟨rfl, rfl | rfl⟩ := hc
        · exact hhex h
        · exact hhex h
      · have hall : Veiled (d :: more) (d :: more') := .cons d h
        have hplaces := hall.drop_leading hdigit.1
        rw [numberExtent_decimal hc, numberExtent_decimal hc,
          ← hall.leading_eq hdigit]
        rw [← List.drop_drop, ← List.drop_drop, hplaces.begins_eq (by decide)]
        generalize (d :: more).drop (leading Char.isDigit (d :: more)) = x
          at hplaces
        generalize (d :: more').drop (leading Char.isDigit (d :: more)) = x'
          at hplaces
        cases hplaces with
        | nil => rfl
        | veil cs cs' => rfl
        | cons y hy =>
            rw [List.drop_one, List.drop_one, List.tail_cons, List.tail_cons,
              hy.begins_eq (by decide), hy.leading_eq hdigit]

/-- A string that is closed, or goes to the end of both texts. -/
theorem VeiledAfter.stringExtent_eq {quote : Char} (hq : quote ≠ ' ')
    (h : VeiledAfter (stringExtent quote rest) rest rest') :
    stringExtent quote rest' = stringExtent quote rest := by
  fun_induction stringExtent quote rest generalizing rest' with
  | case1 x rest ih =>
      cases h with
      | cons _ h =>
          cases h with
          | cons _ h => rw [stringExtent, ih h]
  | case2 rest hne ih =>
      cases h with
      | cons _ h =>
          cases h with
          | cons _ h =>
              rw [stringExtent, if_pos rfl, if_pos rfl, ih h]
              exact hne
  | case3 d rest hd hne =>
      cases h with
      | cons _ h =>
          cases h with
          | here h =>
              cases h with
              | veil cs cs' =>
                  rw [stringExtent, if_pos rfl, if_neg hq.symm]
                  exact hne
              | cons _ h =>
                  rw [stringExtent, if_pos rfl, if_neg hd]
                  exact hne
  | case4 c d rest hne hc ih =>
      cases h with
      | @cons _ _ _ tail h =>
          have htail := ih h
          cases tail with
          | nil => cases h.veiled
          | cons x tail =>
              rw [stringExtent, if_neg hc, htail]
              exact hne
  | case5 c =>
      cases h with
      | cons _ h =>
          cases h.veiled
          rw [stringExtent]
  | case6 =>
      cases h.veiled
      rfl

/-- A comment. -/
theorem VeiledAfter.commentExtent_eq {outer : Nat}
    (h : VeiledAfter (commentExtent outer rest) rest rest') :
    commentExtent outer rest' = commentExtent outer rest := by
  fun_induction commentExtent outer rest generalizing rest' with
  | case1 outer rest ih =>
      cases h with
      | cons _ h =>
          cases h with
          | cons _ h => rw [commentExtent, ih h]
  | case2 tail =>
      cases h with
      | cons _ h =>
          cases h with
          | cons _ h => rfl
  | case3 outer rest ih =>
      cases h with
      | cons _ h =>
          cases h with
          | cons _ h => rw [commentExtent, ih h]
  | case4 outer c rest hopen hzero hclose ih =>
      cases h with
      | @cons _ _ _ tail h =>
          -- neither mark begins here in the second text
          have hhead : ∀ x more, x ≠ ' ' → tail = x :: more →
              ∃ more', rest = x :: more' := by
            rintro x more hx rfl
            have hv := h.veiled
            cases hv with
            | veil cs cs' => exact absurd rfl hx
            | cons _ hv => exact ⟨_, rfl⟩
          rw [commentExtent, ih h]
          · intro more hc he
            obtain ⟨more', hm⟩ := hhead '*' more (by decide) he
            exact hopen more' hc hm
          · intro more ho hc he
            obtain ⟨more', hm⟩ := hhead '/' more (by decide) he
            exact hzero more' ho hc hm
          · intro o more ho hc he
            obtain ⟨more', hm⟩ := hhead '/' more (by decide) he
            exact hclose o more' ho hc hm
  | case5 =>
      cases h.veiled
      rfl

-- =================================================================== forms

theorem VeiledAfter.ofSlash_eq
    (h : VeiledAfter (ofSlash rest).extent rest rest') :
    ofSlash rest' = ofSlash rest := by
  unfold ofSlash at h ⊢
  split at h
  · rename_i more
    cases h with
    | @cons _ _ _ more' h =>
        show Lexeme.mk _ (leading isInline more' + 1) = _
        rw [h.leading_eq (by decide)]
  · rename_i more
    cases h with
    | @cons _ _ _ more' h =>
        show Lexeme.mk _ (commentExtent 0 more' + 1) = _
        rw [h.commentExtent_eq]
  · rename_i hslash hstar
    have hv := h.veiled
    rw [hv.begins_eq (by decide)]
    cases hv with
    | nil => rfl
    | veil cs cs' => exact absurd rfl (hslash cs)
    | @cons x cs cs' hv =>
        split
        · rename_i he
          exact absurd (congrArg (· :: cs) (List.cons.inj he).1) (hslash cs)
        · rename_i he
          exact absurd (congrArg (· :: cs) (List.cons.inj he).1) (hstar cs)
        · rfl

theorem Veiled.ofDollar_eq (h : Veiled rest rest') :
    ofDollar rest' = ofDollar rest := by
  have hplain : isPlain '/' = false ∧ isPlain ' ' = false := by decide
  unfold ofDollar
  dsimp only
  rw [h.begins_eq (by decide), ← h.leading_eq hplain,
    (h.drop_leading hplain.1).begins_eq (by decide)]

theorem Veiled.ofMark_eq (h : Veiled rest rest') :
    ofMark c rest' = ofMark c rest := by
  have hpairs : pairs.contains (c, '/') = pairs.contains (c, ' ') := by
    simp [pairs]
  unfold ofMark
  rw [h.begins_eq hpairs]

/-- The lexeme that a character begins, where it is no white space. -/
theorem first_veiled (hgap : isGap c = false) (hbrace : c ≠ '\x7b')
    (h : VeiledAfter (first c rest).extent rest rest') :
    first c rest' = first c rest := by
  have hv := h.veiled
  have hstart : isNameStart '/' = false ∧ isNameStart ' ' = false := by decide
  unfold first at h ⊢
  rw [hgap, if_neg Bool.false_ne_true] at h ⊢
  rw [if_neg Bool.false_ne_true, hv.begins_eq (p := (· == '\n')) (by decide),
    hv.begins_eq (p := Char.isAlpha) (by decide),
    hv.begins_eq (p := Char.isDigit) (by decide), ← hv.wordExtent_eq,
    ← hv.numberExtent_eq, hv.ofDollar_eq, hv.ofMark_eq,
    ← hv.leading_eq (p := isPlain) (by decide),
    ← hv.leading_eq (p := Char.isDigit) (by decide),
    ← hv.leading_eq (p := isForeign) (by decide)]
  by_cases h1 : c = '\r'
  · rw [if_pos h1, if_pos h1]
  rw [if_neg h1] at h
  rw [if_neg h1, if_neg h1]
  by_cases h2 : c = '\n'
  · rw [if_pos h2, if_pos h2]
  rw [if_neg h2] at h
  rw [if_neg h2, if_neg h2]
  by_cases h3 : isNameStart c = true
  · rw [if_pos h3, if_pos h3]
  rw [if_neg h3] at h
  rw [if_neg h3, if_neg h3]
  by_cases h4 : c.isDigit = true
  · rw [if_pos h4, if_pos h4]
  rw [if_neg h4] at h
  rw [if_neg h4, if_neg h4]
  by_cases h5 : c = '"' ∨ c = '\x27'
  · rw [if_pos h5] at h
    rw [if_pos h5, if_pos h5, h.stringExtent_eq]
    rcases h5 with rfl | rfl <;> decide
  rw [if_neg h5] at h
  rw [if_neg h5, if_neg h5]
  rw [if_neg hbrace] at h
  rw [if_neg hbrace, if_neg hbrace]
  by_cases h6 : c = '/'
  · rw [if_pos h6] at h
    rw [if_pos h6, if_pos h6, h.ofSlash_eq]
  · rw [if_neg h6, if_neg h6]

/-- The same after any other token, where a dot or a colon has the same behind
it in both texts. -/
theorem inContext_veiled {previous previous' : Option TokenKind}
    (hprevious : previous = some .string ↔ previous' = some .string)
    (hgap : isGap c = false) (hbrace : c ≠ '\x7b')
    (hpoint : c = '.' ∨ c = ':' → rest.head? = some '/' →
      rest'.head? = some '/')
    (h : VeiledAfter ((first c rest).inContext previous c rest).extent rest
      rest') :
    (first c rest').inContext previous' c rest'
      = (first c rest).inContext previous c rest := by
  have hv := h.veiled
  by_cases hl : first c rest = ⟨.symbol, 0⟩
  · have hfirst : first c rest' = first c rest :=
      first_veiled hgap hbrace (hl ▸ .here hv)
    have hends : (c = '.' ∨ c = ':') ∧ endsStatement rest' = true
        ↔ (c = '.' ∨ c = ':') ∧ endsStatement rest = true := by
      refine and_congr_right fun hc => ?_
      unfold endsStatement begins
      rw [hv.head?_eq (hpoint hc), hv.isEmpty_eq]
    rw [hfirst]
    unfold inContext
    rw [if_pos hl, if_pos hl, hv.begins_eq (p := Char.isAlphanum) (by decide),
      hv.leading_eq (p := Char.isAlphanum) (by decide)]
    simp only [hprevious, hends]
  · have hextent : VeiledAfter (first c rest).extent rest rest' := by
      unfold inContext at h
      rw [if_neg hl] at h
      exact h
    rw [first_veiled hgap hbrace hextent]
    unfold inContext
    rw [if_neg hl, if_neg hl]

end AblOutline.Lexeme
