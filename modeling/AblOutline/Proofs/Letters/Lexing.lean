/-
Tokens of a text in small letters. Where tokens end depends on marks, digits
and on what is a letter, and not on the case of a letter. So the tokens of a
text in small letters are those of the text, in the same places and of the
same kinds, with their texts in small letters (`tokenize_lower`).
-/
import AblOutline.Proofs.Letters.Text
import AblOutline.Proofs.Lexing.Extent
import AblOutline.Proofs.Lexing.Lines

namespace AblOutline

open Text

/-- The token with its text in small letters. -/
def Token.small (t : Token) : Token := { t with text := lower t.text }

namespace Lexeme

-- ============================================================== classes

section Classes

variable (c : Char)

theorem isGap_toLower : isGap c.toLower = isGap c :=
  toLower_class (by decide) c

theorem isNameStart_toLower : isNameStart c.toLower = isNameStart c :=
  toLower_class (by decide) c

theorem isPlain_toLower : isPlain c.toLower = isPlain c :=
  toLower_class (by decide) c

theorem isNamePart_toLower : isNamePart c.toLower = isNamePart c :=
  toLower_class (by decide) c

theorem isHexDigit_toLower : isHexDigit c.toLower = isHexDigit c :=
  toLower_class (by decide) c

theorem isForeign_toLower : isForeign c.toLower = isForeign c :=
  toLower_class (by decide) c

theorem isMark_toLower : isMark c.toLower = isMark c :=
  toLower_class (by decide) c

theorem isInline_toLower : isInline c.toLower = isInline c :=
  toLower_class (by decide) c

end Classes

variable {p : Char → Bool}

theorem leading_lower (hp : ∀ c : Char, p c.toLower = p c) (cs : List Char) :
    leading p (cs.map Char.toLower) = leading p cs := by
  unfold leading
  rw [List.takeWhile_map, show p ∘ Char.toLower = p from funext hp,
    List.length_map]

theorem begins_lower (hp : ∀ c : Char, p c.toLower = p c) (cs : List Char) :
    begins p (cs.map Char.toLower) = begins p cs := by
  cases cs with
  | nil => rfl
  | cons c cs => exact hp c

/-- A text that begins with a mark in small letters begins with it. -/
theorem cons_of_lower {k : Char} (hk : k.isAlpha = false) {cs more : List Char}
    (h : cs.map Char.toLower = k :: more) : ∃ tail, cs = k :: tail := by
  cases cs with
  | nil => cases h
  | cons c tail =>
      exact ⟨tail, by rw [(toLower_eq_iff hk).1 (List.cons.inj h).1]⟩

-- ============================================================== extents

theorem commentExtent_lower (outer : Nat) (cs : List Char) :
    commentExtent outer (cs.map Char.toLower) = commentExtent outer cs := by
  fun_induction commentExtent outer cs with
  | case1 outer rest ih => exact congrArg (· + 2) ih
  | case2 => rfl
  | case3 outer rest ih => exact congrArg (· + 2) ih
  | case4 outer c rest hopen hzero hclose ih =>
      rw [List.map_cons, commentExtent, ih]
      · intro more hc he
        obtain ⟨tail, rfl⟩ := cons_of_lower rfl he
        exact hopen tail ((toLower_eq_iff rfl).1 hc) rfl
      · intro more ho hc he
        obtain ⟨tail, rfl⟩ := cons_of_lower rfl he
        exact hzero tail ho ((toLower_eq_iff rfl).1 hc) rfl
      · intro o more ho hc he
        obtain ⟨tail, rfl⟩ := cons_of_lower rfl he
        exact hclose o tail ho ((toLower_eq_iff rfl).1 hc) rfl
  | case5 => rfl

theorem stringExtent_lower {quote : Char} (hquote : quote.isAlpha = false)
    (cs : List Char) :
    stringExtent quote (cs.map Char.toLower) = stringExtent quote cs := by
  fun_induction stringExtent quote cs with
  | case1 x rest ih => exact congrArg (· + 2) ih
  | case2 rest hne ih =>
      rw [List.map_cons, List.map_cons, toLower_of_not_isAlpha hquote,
        stringExtent, if_pos rfl, if_pos rfl, ih]
      exact hne
  | case3 d rest hd hne =>
      rw [List.map_cons, List.map_cons, toLower_of_not_isAlpha hquote,
        stringExtent, if_pos rfl, if_neg (mt (toLower_eq_iff hquote).1 hd)]
      exact hne
  | case4 c d rest hne hc ih =>
      rw [List.map_cons, List.map_cons, stringExtent,
        if_neg (mt (toLower_eq_iff hquote).1 hc), ← List.map_cons, ih]
      exact fun h => hne ((toLower_eq_iff rfl).1 h)
  | case5 c => rw [List.map_cons, List.map_nil, stringExtent]
  | case6 => rfl

/-- Outside of quotes there is no quote that is a letter. -/
theorem none_not_isAlpha :
    ∀ q, (none : Option Char) = some q → q.isAlpha = false :=
  fun _ h => by cases h

theorem braceExtent_lower (outer : Nat) {quote : Option Char}
    (hquote : ∀ q, quote = some q → q.isAlpha = false) (cs : List Char) :
    braceExtent outer quote (cs.map Char.toLower)
      = braceExtent outer quote cs := by
  fun_induction braceExtent outer quote cs with
  | case1 outer quote c rest ih => exact congrArg (· + 2) (ih hquote)
  | case2 outer quote c rest hne ih =>
      have hsame : (if c.toLower = quote then none else some quote)
          = if c = quote then none else some quote := by
        simp only [toLower_eq_iff (hquote quote rfl)]
      have hleft : ∀ q, (if c = quote then none else some quote) = some q →
          q.isAlpha = false := by
        intro q hq
        split at hq
        · cases hq
        · exact hquote q hq
      rw [List.map_cons, braceExtent, hsame, ih hleft]
      intro d more hc he
      obtain ⟨e, tail, rfl⟩ : ∃ e tail, rest = e :: tail :=
        List.exists_cons_of_ne_nil (by rintro rfl; cases he)
      exact hne e tail ((toLower_eq_iff rfl).1 hc) rfl
  | case3 outer c rest hc ih =>
      have hmark : c.isAlpha = false := by
        rcases hc with rfl | rfl <;> rfl
      rw [List.map_cons, toLower_of_not_isAlpha hmark, braceExtent_none,
        if_pos hc, ih fun q hq => Option.some.inj hq ▸ hmark]
  | case4 outer rest hc ih =>
      rw [List.map_cons, toLower_of_not_isAlpha rfl, braceExtent_none,
        if_neg hc, if_pos rfl, ih none_not_isAlpha]
  | case5 rest hc hopen => rfl
  | case6 rest outer hc hopen ih => exact congrArg (· + 1) (ih none_not_isAlpha)
  | case7 outer c rest hc hopen hclose ih =>
      rw [List.map_cons, braceExtent_none,
        if_neg (mt (Or.imp (toLower_eq_iff rfl).1 (toLower_eq_iff rfl).1) hc),
        if_neg (mt (toLower_eq_iff rfl).1 hopen),
        if_neg (mt (toLower_eq_iff rfl).1 hclose), ih none_not_isAlpha]
  | case8 outer quote => cases quote <;> rfl

theorem wordExtent_lower (cs : List Char) :
    wordExtent (cs.map Char.toLower) = wordExtent cs := by
  fun_induction wordExtent cs with
  | case1 c rest hc ih =>
      rw [List.map_cons, List.map_cons, toLower_of_not_isAlpha rfl, wordExtent,
        isNamePart_toLower, if_pos hc, ih]
  | case2 c rest hc =>
      rw [List.map_cons, List.map_cons, toLower_of_not_isAlpha rfl, wordExtent,
        isNamePart_toLower, if_neg hc]
  | case3 c rest hdot hc ih =>
      rw [List.map_cons, wordExtent, isNamePart_toLower, if_pos hc, ih]
      intro d more hcd he
      obtain ⟨e, tail, rfl⟩ : ∃ e tail, rest = e :: tail :=
        List.exists_cons_of_ne_nil (by rintro rfl; cases he)
      exact hdot e tail ((toLower_eq_iff rfl).1 hcd) rfl
  | case4 c rest hdot hc =>
      rw [List.map_cons, wordExtent, isNamePart_toLower, if_neg hc]
      intro d more hcd he
      obtain ⟨e, tail, rfl⟩ : ∃ e tail, rest = e :: tail :=
        List.exists_cons_of_ne_nil (by rintro rfl; cases he)
      exact hdot e tail ((toLower_eq_iff rfl).1 hcd) rfl
  | case5 => rfl

/-- The digits of a number, and the places after the dot. -/
theorem decimal_lower (cs : List Char) :
    (match (cs.map Char.toLower).drop (leading Char.isDigit cs) with
      | '.' :: more =>
        if begins Char.isDigit more then
          leading Char.isDigit cs + 1 + leading Char.isDigit more
        else leading Char.isDigit cs
      | _ => leading Char.isDigit cs)
    = match cs.drop (leading Char.isDigit cs) with
      | '.' :: more =>
        if begins Char.isDigit more then
          leading Char.isDigit cs + 1 + leading Char.isDigit more
        else leading Char.isDigit cs
      | _ => leading Char.isDigit cs := by
  rw [← List.map_drop]
  cases cs.drop (leading Char.isDigit cs) with
  | nil => rfl
  | cons c more =>
      by_cases hc : c = '.'
      · subst hc
        show (if begins Char.isDigit (more.map Char.toLower) then _ else _) = _
        rw [begins_lower isDigit_toLower, leading_lower isDigit_toLower]
        rfl
      · have hlower : c.toLower ≠ '.' := mt (toLower_eq_iff rfl).1 hc
        rw [List.map_cons]
        simp [hc, hlower]

theorem numberExtent_plain {c : Char} {rest : List Char}
    (h : ∀ more, c = '0' → rest ≠ 'x' :: more ∧ rest ≠ 'X' :: more) :
    numberExtent c rest
      = match rest.drop (leading Char.isDigit rest) with
        | '.' :: more =>
          if begins Char.isDigit more then
            leading Char.isDigit rest + 1 + leading Char.isDigit more
          else leading Char.isDigit rest
        | _ => leading Char.isDigit rest := by
  unfold numberExtent
  split
  · exact absurd rfl (h _ rfl).1
  · exact absurd rfl (h _ rfl).2
  · rfl

theorem eq_of_toLower_x {c : Char} (h : c.toLower = 'x') :
    c = 'x' ∨ c = 'X' := by
  have hcode := congrArg Char.toNat h
  rw [toNat_toLower] at hcode
  split at hcode
  · refine Or.inr (Char.toNat_inj.1 ?_)
    show c.toNat = 88
    have : c.toNat + 32 = 120 := hcode
    omega
  · exact Or.inl (Char.toNat_inj.1 hcode)

theorem numberExtent_lower (c : Char) (rest : List Char) :
    numberExtent c.toLower (rest.map Char.toLower) = numberExtent c rest := by
  by_cases hhex : c = '0' ∧ ∃ more, rest = 'x' :: more ∨ rest = 'X' :: more
  · have hsame : ∀ more : List Char,
        (if begins isHexDigit (more.map Char.toLower) then
          leading isHexDigit (more.map Char.toLower) + 1 else 0)
        = if begins isHexDigit more then leading isHexDigit more + 1 else 0 := by
      intro more
      rw [begins_lower isHexDigit_toLower, leading_lower isHexDigit_toLower]
    obtain ⟨rfl, more, rfl | rfl⟩ := hhex
    · exact hsame more
    · exact hsame more
  · have hplain : ∀ more, c = '0' →
        rest ≠ 'x' :: more ∧ rest ≠ 'X' :: more := fun more hc =>
      ⟨fun hr => hhex ⟨hc, more, Or.inl hr⟩,
        fun hr => hhex ⟨hc, more, Or.inr hr⟩⟩
    rw [numberExtent_plain hplain, numberExtent_plain,
      leading_lower isDigit_toLower, decimal_lower]
    intro more hc
    have hzero := (toLower_eq_iff rfl).1 hc
    constructor
    · intro hx
      cases rest with
      | nil => cases hx
      | cons d tail =>
          rcases eq_of_toLower_x (List.cons.inj hx).1 with rfl | rfl
          · exact (hplain tail hzero).1 rfl
          · exact (hplain tail hzero).2 rfl
    · intro hx
      cases rest with
      | nil => cases hx
      | cons d tail =>
          -- no capital is a small letter
          have hcode := congrArg Char.toNat (List.cons.inj hx).1
          rw [toNat_toLower] at hcode
          have hbig : ('X').toNat = 88 := rfl
          rw [hbig] at hcode
          split at hcode <;> omega

-- ================================================================ forms

theorem ofBrace_lower (rest : List Char) :
    ofBrace (rest.map Char.toLower) = ofBrace rest := by
  have hmarks : ∀ c : Char,
      (c.toLower == '&' || c.toLower.isDigit || c.toLower == '*')
        = (c == '&' || c.isDigit || c == '*') := fun c => by
    rw [toLower_beq rfl, toLower_beq rfl, isDigit_toLower]
  unfold ofBrace
  rw [begins_lower hmarks, braceExtent_lower 0 none_not_isAlpha]

theorem ofDollar_lower (rest : List Char) :
    ofDollar (rest.map Char.toLower) = ofDollar rest := by
  unfold ofDollar
  dsimp only
  rw [begins_lower isNameStart_toLower, leading_lower isPlain_toLower,
    ← List.map_drop,
    begins_lower (toLower_beq rfl)]

theorem ofSlash_lower (rest : List Char) :
    ofSlash (rest.map Char.toLower) = ofSlash rest := by
  cases rest with
  | nil => rfl
  | cons d more =>
      by_cases hslash : d = '/'
      · subst hslash
        show Lexeme.mk _ (leading isInline (more.map _) + 1) = _
        rw [leading_lower isInline_toLower]
        rfl
      · by_cases hstar : d = '*'
        · subst hstar
          show Lexeme.mk _ (commentExtent 0 (more.map _) + 1) = _
          rw [commentExtent_lower]
          rfl
        · have hslash' := mt (toLower_eq_iff (c := d) rfl).1 hslash
          have hstar' := mt (toLower_eq_iff (c := d) rfl).1 hstar
          have hbegins := begins_lower (p := (· == '=')) (toLower_beq rfl)
            (d :: more)
          unfold ofSlash
          rw [hbegins]
          simp [hslash, hstar, hslash', hstar']

theorem mem_pairs_lower (c d : Char) :
    (c.toLower, d.toLower) ∈ pairs ↔ (c, d) ∈ pairs := by
  have hmarks : ∀ x ∈ pairs, x.1.isAlpha = false ∧ x.2.isAlpha = false := by
    decide
  constructor
  · intro h
    obtain ⟨hc, hd⟩ := hmarks _ h
    rw [isAlpha_toLower] at hc hd
    rw [toLower_of_not_isAlpha hc, toLower_of_not_isAlpha hd] at h
    exact h
  · intro h
    obtain ⟨hc, hd⟩ := hmarks _ h
    rw [toLower_of_not_isAlpha hc, toLower_of_not_isAlpha hd]
    exact h

theorem ofMark_lower (c : Char) (rest : List Char) :
    ofMark c.toLower (rest.map Char.toLower) = ofMark c rest := by
  have hpairs : begins (fun d => pairs.contains (c.toLower, d))
        (rest.map Char.toLower)
      = begins (fun d => pairs.contains (c, d)) rest := by
    cases rest with
    | nil => rfl
    | cons d more =>
        show pairs.contains _ = pairs.contains _
        rw [Bool.eq_iff_iff, List.contains_iff_mem, List.contains_iff_mem,
          mem_pairs_lower]
  unfold ofMark
  rw [hpairs]

-- ================================================================ lexemes

/-- The lexeme that a character begins, in small letters. -/
theorem first_lower (c : Char) (rest : List Char) :
    first c.toLower (rest.map Char.toLower) = first c rest := by
  have hcr : c.toLower = '\r' ↔ c = '\r' := toLower_eq_iff rfl
  have hlf : c.toLower = '\n' ↔ c = '\n' := toLower_eq_iff rfl
  have hquote : c.toLower = '"' ↔ c = '"' := toLower_eq_iff rfl
  have htick : c.toLower = '\x27' ↔ c = '\x27' := toLower_eq_iff rfl
  have hbrace : c.toLower = '\x7b' ↔ c = '\x7b' := toLower_eq_iff rfl
  have hslash : c.toLower = '/' ↔ c = '/' := toLower_eq_iff rfl
  have hdollar : c.toLower = '$' ↔ c = '$' := toLower_eq_iff rfl
  have hamp : c.toLower = '&' ↔ c = '&' := toLower_eq_iff rfl
  have hdot : c.toLower = '.' ↔ c = '.' := toLower_eq_iff rfl
  have hbreak := begins_lower (p := (· == '\n')) (toLower_beq rfl) rest
  have hstring : ∀ other : Lexeme,
      (if c = '"' ∨ c = '\x27' then
        ⟨.string, stringExtent c.toLower (rest.map Char.toLower)⟩ else other)
      = if c = '"' ∨ c = '\x27' then ⟨.string, stringExtent c rest⟩
        else other := by
    intro other
    by_cases hc : c = '"' ∨ c = '\x27'
    · have hletter : c.isAlpha = false := by
        rcases hc with rfl | rfl <;> rfl
      rw [if_pos hc, if_pos hc, toLower_of_not_isAlpha hletter,
        stringExtent_lower hletter]
    · rw [if_neg hc, if_neg hc]
  unfold first
  simp only [isGap_toLower, leading_lower isGap_toLower, hcr, hlf, hquote,
    htick, hbrace, hslash, hdollar, hamp, hdot, hbreak, isNameStart_toLower,
    wordExtent_lower, isDigit_toLower, numberExtent_lower, hstring,
    ofBrace_lower, ofSlash_lower, ofDollar_lower, begins_lower isAlpha_toLower,
    leading_lower isPlain_toLower, begins_lower isDigit_toLower,
    leading_lower isDigit_toLower, isMark_toLower, ofMark_lower,
    isForeign_toLower, leading_lower isForeign_toLower]

/-- The same after any other token. -/
theorem inContext_lower (previous : Option TokenKind) (c : Char)
    (rest : List Char) (l : Lexeme) :
    l.inContext previous c.toLower (rest.map Char.toLower)
      = l.inContext previous c rest := by
  have hcolon : c.toLower = ':' ↔ c = ':' := toLower_eq_iff rfl
  have hdot : c.toLower = '.' ↔ c = '.' := toLower_eq_iff rfl
  have hends : endsStatement (rest.map Char.toLower) = endsStatement rest := by
    have hgap : ∀ c : Char, (isGap c.toLower || c.toLower == '\r'
        || c.toLower == '\n') = (isGap c || c == '\r' || c == '\n') :=
      fun c => by rw [isGap_toLower, toLower_beq rfl, toLower_beq rfl]
    unfold endsStatement
    rw [List.isEmpty_map, begins_lower hgap]
  unfold inContext
  simp only [hcolon, hdot, begins_lower isAlphanum_toLower,
    leading_lower isAlphanum_toLower, hends]

end Lexeme

-- ================================================================= tokens

/-- The place after a text does not depend on its letters. -/
theorem Position.after_lower (start : Position) (cs : List Char) :
    start.after (cs.map Char.toLower) = start.after cs := by
  fun_induction Position.after start cs with
  | case1 => rfl
  | case2 start rest ih => exact ih
  | case3 start c rest hne hc ih =>
      rw [List.map_cons, Position.after,
        if_pos (hc.imp (toLower_eq_iff rfl).2 (toLower_eq_iff rfl).2), ih]
      intro more hr he
      obtain ⟨tail, rfl⟩ := Lexeme.cons_of_lower rfl he
      exact hne tail ((toLower_eq_iff rfl).1 hr) rfl
  | case4 start c rest hne hc ih =>
      rw [List.map_cons, Position.after,
        if_neg (mt (Or.imp (toLower_eq_iff rfl).1 (toLower_eq_iff rfl).1) hc),
        ih]
      intro more hr he
      obtain ⟨tail, rfl⟩ := Lexeme.cons_of_lower rfl he
      exact hne tail ((toLower_eq_iff rfl).1 hr) rfl

namespace Token

theorem byteCount_lower (cs : List Char) :
    byteCount (cs.map Char.toLower) = byteCount cs := by
  induction cs with
  | nil => rfl
  | cons c cs ih =>
      rw [List.map_cons, byteCount, byteCount, ih, utf8Size_toLower]

theorem scanFrom_lower (start : Position) (offset : Nat)
    (previous : Option TokenKind) (cs : List Char) :
    scanFrom start offset previous (cs.map Char.toLower)
      = (scanFrom start offset previous cs).map small := by
  fun_induction scanFrom start offset previous cs with
  | case1 start offset => 
      rw [List.map_nil, scanFrom]
      rfl
  | case2 start offset previous c rest lexeme chars stop ih =>
      have hlexeme : (Lexeme.first c.toLower (rest.map Char.toLower)).inContext
          previous c.toLower (rest.map Char.toLower) = lexeme := by
        rw [Lexeme.first_lower, Lexeme.inContext_lower]
      have hchars : c.toLower :: (rest.map Char.toLower).take lexeme.extent
          = chars.map Char.toLower := by
        rw [← List.map_take]
        rfl
      rw [List.map_cons, scanFrom]
      rw [hlexeme, hchars, ← List.map_drop, Position.after_lower,
        byteCount_lower, ih, List.map_cons]
      refine congrArg (· :: _) ?_
      unfold small
      rw [ofList_lower]
      rfl

end Token

/-- The tokens of a text in small letters. -/
theorem tokenize_lower (text : String) :
    tokenize (lower text) = (tokenize text).map Token.small := by
  unfold tokenize
  rw [toList_lower, Token.scanFrom_lower]

theorem tokenizeFragment_lower (text : String) (owner : Nat) :
    tokenizeFragment (lower text) owner
      = (tokenizeFragment text owner).map Token.small := by
  unfold tokenizeFragment
  rw [tokenize_lower, List.filter_map, List.map_map, List.map_map]
  rfl

end AblOutline
