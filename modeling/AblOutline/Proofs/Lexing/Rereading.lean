/-
Tokens read on their own. How far a lexeme reaches is settled by the characters
that it takes: cut the text behind it and the same lexeme comes out
(`first_take`). A string, a comment or braces that nothing closes take the rest
of the text, so there is nothing to cut.

Only the context can tell a token from its own text: a descriptor needs the
string before it, and a dot or a colon by itself ends a statement. Every other
token is what its text alone is read as (`lex_chars`), so a value that is the
text of one token is that token again where it is put in
(`tokenize_text_of_mem`).
-/
import AblOutline.Proofs.Comments.Lexemes
import AblOutline.Proofs.Lexing.Tiling
import AblOutline.Parse.Expansion

namespace AblOutline

namespace Lexeme

variable {c d : Char} {rest : List Char} {p q : Char → Bool} {n : Nat}

-- ================================================================= prefixes

theorem leading_take : leading p (rest.take n) = min n (leading p rest) := by
  induction rest generalizing n with
  | nil => simp [leading]
  | cons c rest ih =>
      cases n with
      | zero => simp [leading]
      | succ n =>
          rw [List.take_succ_cons, leading_cons, leading_cons, ih]
          split
          · omega
          · simp

theorem begins_nil : begins p [] = false := rfl

theorem begins_take :
    begins p (rest.take n) = (decide (0 < n) && begins p rest) := by
  cases n with
  | zero => simp [begins]
  | succ n => cases rest <;> simp [begins]

/-- A prefix begins with nothing that the text does not begin with. -/
theorem not_begins_take {own : Prop} (h : ¬ (own ∧ begins p rest = true)) :
    ¬ (own ∧ begins p (rest.take n) = true) := by
  intro htake
  rw [begins_take, Bool.and_eq_true] at htake
  exact h ⟨htake.1, htake.2.2⟩

/-- What begins a run is in it. -/
theorem leading_pos (h : begins p rest = true) (hpq : ∀ c, p c = true → q c = true) :
    0 < leading q rest := by
  cases rest with
  | nil => simp [begins] at h
  | cons c rest =>
      have hc : q c = true := hpq c h
      rw [leading_cons, if_pos hc]
      omega

/-- A prefix begins with what the text begins with. -/
theorem eq_cons_of_take_eq {more : List Char} (h : rest.take n = d :: more) :
    ∃ tail, rest = d :: tail := by
  cases rest with
  | nil => simp at h
  | cons x tail =>
      cases n with
      | zero => simp at h
      | succ n =>
          rw [List.take_succ_cons] at h
          exact ⟨tail, by rw [(List.cons.inj h).1]⟩

-- ================================================================== extents

theorem commentExtent_take {outer : Nat} :
    commentExtent outer (rest.take (commentExtent outer rest))
      = commentExtent outer rest := by
  fun_induction commentExtent outer rest with
  | case1 outer rest ih =>
      rw [List.take_succ_cons, List.take_succ_cons, commentExtent, ih]
  | case2 rest => rfl
  | case3 outer rest ih =>
      rw [List.take_succ_cons, List.take_succ_cons, commentExtent, ih]
  | case4 outer c rest hopen hzero hclose ih =>
      -- the cut brings no two marks together that were apart
      rw [List.take_succ_cons, commentExtent, ih]
      · intro more hc he
        obtain ⟨tail, htail⟩ := eq_cons_of_take_eq he
        exact hopen tail hc htail
      · intro more ho hc he
        obtain ⟨tail, htail⟩ := eq_cons_of_take_eq he
        exact hzero tail ho hc htail
      · intro o more ho hc he
        obtain ⟨tail, htail⟩ := eq_cons_of_take_eq he
        exact hclose o tail ho hc htail
  | case5 => rfl

theorem stringExtent_singleton {quote : Char} : stringExtent quote [c] = 1 := by
  simp [stringExtent]

theorem stringExtent_take {quote : Char} :
    stringExtent quote (rest.take (stringExtent quote rest))
      = stringExtent quote rest := by
  fun_induction stringExtent quote rest with
  | case1 x rest ih =>
      rw [List.take_succ_cons, List.take_succ_cons, stringExtent, ih]
  | case2 rest hne ih =>
      rw [List.take_succ_cons, List.take_succ_cons, stringExtent, if_pos rfl,
        if_pos rfl, ih]
      exact hne
  | case3 d rest hd hne => exact stringExtent_singleton
  | case4 c d rest hne hc ih =>
      rw [List.take_succ_cons]
      generalize htake : (d :: rest).take (stringExtent quote (d :: rest))
        = taken at ih ⊢
      cases taken with
      | nil =>
          rw [stringExtent_singleton, ← ih]
          rfl
      | cons x taken =>
          obtain ⟨tail, htail⟩ := eq_cons_of_take_eq htake
          obtain rfl : d = x := (List.cons.inj htail).1
          rw [stringExtent, if_neg hc, ih]
          exact hne
  | case5 c => exact stringExtent_singleton
  | case6 => rfl

theorem braceExtent_take {outer : Nat} {quote : Option Char} :
    braceExtent outer quote (rest.take (braceExtent outer quote rest))
      = braceExtent outer quote rest := by
  fun_induction braceExtent outer quote rest with
  | case1 outer quote c rest ih =>
      rw [List.take_succ_cons, List.take_succ_cons, braceExtent, ih]
  | case2 outer quote c rest hne ih =>
      rw [List.take_succ_cons, braceExtent, ih]
      intro x more hc he
      obtain ⟨tail, htail⟩ := eq_cons_of_take_eq he
      exact hne x tail hc htail
  | case3 outer c rest hc ih =>
      rw [List.take_succ_cons, braceExtent_none, if_pos hc, ih]
  | case4 outer rest hc ih =>
      rw [List.take_succ_cons, braceExtent_none, if_neg hc, if_pos rfl, ih]
  | case5 rest hc hopen =>
      rw [List.take_succ_cons, braceExtent_none, if_neg hc, if_neg hopen,
        if_pos rfl]
  | case6 rest outer hc hopen ih =>
      rw [List.take_succ_cons, braceExtent_none, if_neg hc, if_neg hopen,
        if_pos rfl]
      show braceExtent outer none _ + 1 = _
      rw [ih]
  | case7 outer c rest hc hopen hclose ih =>
      rw [List.take_succ_cons, braceExtent_none, if_neg hc, if_neg hopen,
        if_neg hclose, ih]
  | case8 => simp [braceExtent]

theorem wordExtent_take :
    wordExtent (rest.take (wordExtent rest)) = wordExtent rest := by
  fun_induction wordExtent rest with
  | case1 c rest hc ih =>
      rw [List.take_succ_cons, List.take_succ_cons, wordExtent, if_pos hc, ih]
  | case2 c rest hc => rfl
  | case3 c rest hdot hc ih =>
      rw [List.take_succ_cons, wordExtent, if_pos hc, ih]
      intro d more hcd he
      -- a dot is no name part
      rw [hcd] at hc
      cases hc
  | case4 c rest hdot hc => rfl
  | case5 => rfl

/-- How far the digits of a number reach, with the places after a dot. -/
def decimalExtent (rest : List Char) : Nat :=
  let whole := leading Char.isDigit rest
  let places := rest.drop (whole + 1)
  if begins (· == '.') (rest.drop whole) && begins Char.isDigit places then
    whole + 1 + leading Char.isDigit places
  else whole

theorem numberExtent_eq_decimal
    (hc : ¬ (c = '0' ∧ begins (fun d => d == 'x' || d == 'X') rest = true)) :
    numberExtent c rest = decimalExtent rest := by
  cases rest with
  | nil =>
      unfold numberExtent decimalExtent
      simp [leading, begins]
  | cons d rest =>
      refine numberExtent_decimal fun h => hc ⟨h.1, ?_⟩
      simpa [begins] using h.2

theorem decimalExtent_take :
    decimalExtent (rest.take (decimalExtent rest)) = decimalExtent rest := by
  generalize hn : decimalExtent rest = n
  unfold decimalExtent at hn ⊢
  dsimp only at hn ⊢
  by_cases hplaces : (begins (· == '.')
        (rest.drop (leading Char.isDigit rest))
      && begins Char.isDigit
        (rest.drop (leading Char.isDigit rest + 1))) = true
  · -- the dot and at least one place are in the cut text
    rw [if_pos hplaces] at hn
    rw [Bool.and_eq_true] at hplaces
    have hpos := leading_pos (q := Char.isDigit) hplaces.2 fun c hc => hc
    have hwhole : min n (leading Char.isDigit rest)
        = leading Char.isDigit rest := by omega
    have hdot : 0 < n - leading Char.isDigit rest := by omega
    have hplace : 0 < n - (leading Char.isDigit rest + 1) := by omega
    rw [leading_take, hwhole, List.drop_take, List.drop_take, begins_take,
      begins_take, leading_take, hplaces.1, hplaces.2, decide_eq_true hdot,
      decide_eq_true hplace]
    simp only [Bool.and_self, if_true]
    omega
  · rw [if_neg hplaces] at hn
    rw [leading_take, hn, Nat.min_self]
    simp [begins]

theorem numberExtent_take :
    numberExtent c (rest.take (numberExtent c rest)) = numberExtent c rest := by
  have hhex : ∀ x more, (∀ more', numberExtent '0' (x :: more')
        = if begins isHexDigit more' then leading isHexDigit more' + 1 else 0) →
      numberExtent '0' ((x :: more).take (numberExtent '0' (x :: more)))
        = numberExtent '0' (x :: more) := by
    intro x more hx
    rw [hx more]
    by_cases hmore : begins isHexDigit more = true
    · have hpos := leading_pos (q := isHexDigit) hmore fun c hc => hc
      rw [if_pos hmore, List.take_succ_cons, hx, begins_take, leading_take, hmore]
      simp [hpos]
    · rw [if_neg hmore]
      rfl
  by_cases hc : c = '0' ∧ begins (fun d => d == 'x' || d == 'X') rest = true
  · obtain ⟨rfl, hx⟩ := hc
    cases rest with
    | nil => simp [begins] at hx
    | cons d more =>
        have hd : d = 'x' ∨ d = 'X' := by simpa [begins] using hx
        rcases hd with rfl | rfl
        · exact hhex 'x' more fun _ => rfl
        · exact hhex 'X' more fun _ => rfl
  · rw [numberExtent_eq_decimal hc,
      numberExtent_eq_decimal (not_begins_take hc), decimalExtent_take]

-- ==================================================================== forms

theorem ofBrace_take : ofBrace (rest.take (ofBrace rest).extent) = ofBrace rest := by
  have hbrace : (ofBrace rest).extent = braceExtent 0 none rest := rfl
  cases rest with
  | nil => rfl
  | cons d rest =>
      have hpos : 0 < braceExtent 0 none (d :: rest) := by
        rw [braceExtent_none]
        split
        · exact Nat.succ_pos _
        split
        · exact Nat.succ_pos _
        split <;> exact Nat.succ_pos _
      rw [hbrace]
      unfold ofBrace
      rw [braceExtent_take, begins_take]
      simp [hpos]

theorem ofDollar_take :
    ofDollar (rest.take (ofDollar rest).extent) = ofDollar rest := by
  by_cases hstart : begins isNameStart rest = true
  · have hpos : 0 < leading isPlain rest := leading_pos hstart fun c hc => by
      simp only [isNameStart, isPlain, Char.isAlphanum, Bool.or_eq_true] at hc ⊢
      tauto
    by_cases hclose : begins (· == '$') (rest.drop (leading isPlain rest)) = true
    · have hform : ofDollar rest = ⟨.word, leading isPlain rest + 1⟩ := by
        simp [ofDollar, hstart, hclose]
      rw [hform]
      simp [ofDollar, begins_take, leading_take, List.drop_take, hstart, hclose]
    · have hform : ofDollar rest = ⟨.unknown, leading isPlain rest⟩ := by
        simp [ofDollar, hstart, hclose]
      rw [hform]
      simp [ofDollar, begins_take, begins_nil, leading_take, hstart, hpos]
  · have hform : ofDollar rest = ⟨.symbol, 0⟩ := by
      simp [ofDollar, hstart]
    rw [hform]
    rfl

theorem ofMark_take : ofMark c (rest.take (ofMark c rest).extent) = ofMark c rest := by
  by_cases hpair : begins (fun d => pairs.contains (c, d)) rest = true
  · have hform : ofMark c rest = ⟨.symbol, 1⟩ := by simp only [ofMark, if_pos hpair]
    rw [hform]
    simp only [ofMark, begins_take, hpair]
    rfl
  · have hform : ofMark c rest = ⟨.symbol, 0⟩ := by simp only [ofMark, if_neg hpair]
    rw [hform]
    rfl

theorem ofSlash_take : ofSlash (rest.take (ofSlash rest).extent) = ofSlash rest := by
  cases rest with
  | nil => rfl
  | cons d more =>
      by_cases hslash : d = '/'
      · subst hslash
        show Lexeme.mk _ (leading isInline (more.take (leading isInline more)) + 1)
          = _
        rw [leading_take, Nat.min_self]
        rfl
      by_cases hstar : d = '*'
      · subst hstar
        show Lexeme.mk _ (commentExtent 0 (more.take (commentExtent 0 more)) + 1)
          = _
        rw [commentExtent_take]
        rfl
      have hform : ofSlash (d :: more)
          = ⟨.symbol, if begins (· == '=') (d :: more) then 1 else 0⟩ := by
        simp [ofSlash, hslash, hstar]
      by_cases heq : d = '='
      · subst heq
        rfl
      · rw [hform]
        simp [begins, heq, ofSlash]

/-- The lexeme that a text begins with is the one of its own characters. -/
theorem first_take :
    first c (rest.take (first c rest).extent) = first c rest := by
  unfold first
  by_cases hgap : isGap c = true
  · simp only [if_pos hgap, leading_take, Nat.min_self]
  simp only [if_neg hgap]
  by_cases hreturn : c = '\r'
  · simp only [if_pos hreturn, begins_take]
    by_cases hfeed : begins (· == '\n') rest = true <;> simp [hfeed]
  simp only [if_neg hreturn]
  by_cases hline : c = '\n'
  · simp only [if_pos hline]
  simp only [if_neg hline]
  by_cases hname : isNameStart c = true
  · simp only [if_pos hname, wordExtent_take]
  simp only [if_neg hname]
  by_cases hdigit : c.isDigit = true
  · simp only [if_pos hdigit, numberExtent_take]
  simp only [if_neg hdigit]
  by_cases hquote : c = '"' ∨ c = '\x27'
  · simp only [if_pos hquote, stringExtent_take]
  simp only [if_neg hquote]
  by_cases hbrace : c = '\x7b'
  · simp only [if_pos hbrace, ofBrace_take]
  simp only [if_neg hbrace]
  by_cases hslash : c = '/'
  · simp only [if_pos hslash, ofSlash_take]
  simp only [if_neg hslash]
  by_cases hdollar : c = '$'
  · simp only [if_pos hdollar, ofDollar_take]
  simp only [if_neg hdollar]
  -- what begins a directive or a decimal is kept by the cut, or was not there
  by_cases hdirective : c = '&' ∧ begins Char.isAlpha rest = true
  · have hpos := leading_pos (q := isPlain) hdirective.2 fun c hc => by
      simp [isPlain, Char.isAlphanum, hc]
    simp [hdirective, begins_take, leading_take, hpos]
  simp only [if_neg hdirective, if_neg (not_begins_take hdirective)]
  by_cases hdecimal : c = '.' ∧ begins Char.isDigit rest = true
  · have hpos := leading_pos (q := Char.isDigit) hdecimal.2 fun c hc => hc
    simp [hdecimal, begins_take, leading_take, hpos]
  simp only [if_neg hdecimal, if_neg (not_begins_take hdecimal)]
  by_cases hmark : isMark c = true
  · simp only [if_pos hmark, ofMark_take]
  simp only [if_neg hmark]
  by_cases hforeign : isForeign c = true
  · simp only [if_pos hforeign, leading_take, Nat.min_self]
  · simp only [if_neg hforeign]

/-- What may not be read without its context. -/
def NeedsContext (l : Lexeme) (c : Char) : Prop :=
  l.kind = .descriptor ∨ l = ⟨.symbol, 0⟩ ∧ (c = '.' ∨ c = ':')

/-- A lexeme that needs no context is read alike by itself. -/
theorem inContext_take {previous : Option TokenKind} {l : Lexeme}
    (hl : (first c rest).inContext previous c rest = l)
    (hfree : ¬ l.NeedsContext c) :
    (first c (rest.take l.extent)).inContext none c (rest.take l.extent) = l := by
  by_cases hsymbol : first c rest = ⟨.symbol, 0⟩
  · unfold inContext at hl
    rw [if_pos hsymbol] at hl
    split at hl
    · subst hl
      exact absurd (Or.inl rfl) hfree
    have hnone : (none : Option TokenKind) ≠ some .string := nofun
    have halone : first c [] = ⟨.symbol, 0⟩ := by
      have htake : first c (rest.take (first c rest).extent) = first c rest :=
        first_take
      rw [hsymbol] at htake
      exact htake
    split at hl
    · -- a stop: alone it ends the text
      rename_i hstop
      subst hl
      show (first c []).inContext none c [] = _
      rw [halone]
      unfold inContext
      rw [if_pos rfl, if_neg fun h => hnone h.2.1, if_pos ⟨hstop.1, rfl⟩]
    · subst hl
      rw [hsymbol] at hfree ⊢
      show (first c []).inContext none c [] = _
      rw [halone]
      unfold inContext
      rw [if_pos rfl, if_neg fun h => hnone h.2.1,
        if_neg fun h => hfree (Or.inr ⟨rfl, h.1⟩)]
  · have hfirst : first c rest = l := by
      rw [← hl]
      unfold inContext
      rw [if_neg hsymbol]
    subst hfirst
    rw [first_take]
    unfold inContext
    rw [if_neg hsymbol]

end Lexeme

-- =================================================================== pieces

/-- A piece that its own text does not tell: a descriptor, and a dot or a colon
that ends no statement. -/
def Piece.NeedsContext (p : Piece) : Prop :=
  p.kind = .descriptor ∨ p.kind = .symbol ∧ (p.chars = ['.'] ∨ p.chars = [':'])

/-- The characters of a piece are that piece alone. -/
theorem lex_chars {previous : Option TokenKind} {cs : List Char} {p : Piece}
    (h : p ∈ lexFrom previous cs) (hfree : ¬ p.NeedsContext) :
    lex p.chars = [p] := by
  fun_induction lexFrom previous cs with
  | case1 => cases h
  | case2 previous c rest lexeme ih =>
      rcases List.mem_cons.1 h with rfl | h
      · have hneeds : ¬ lexeme.NeedsContext c := by
          rintro (hkind | ⟨hsymbol, hc⟩)
          · exact hfree (Or.inl hkind)
          · refine hfree (Or.inr ?_)
            rw [hsymbol]
            rcases hc with rfl | rfl
            · exact ⟨rfl, Or.inl rfl⟩
            · exact ⟨rfl, Or.inr rfl⟩
        have hsame := Lexeme.inContext_take (l := lexeme) rfl hneeds
        show lexFrom none (c :: rest.take lexeme.extent) = _
        rw [lexFrom, hsame]
        simp [List.take_take, lexFrom]
      · exact ih h

-- =================================================================== tokens

/-- The token as the only one of a text. -/
def Token.alone (t : Token) : Token :=
  { t with start := .origin, range := ⟨0, t.text.utf8ByteSize⟩, owner := 0 }

/-- A token that its own text does not tell: a descriptor, and a dot or a colon
that ends no statement. -/
def Token.NeedsContext (t : Token) : Prop :=
  t.kind = .descriptor ∨ t.kind = .symbol ∧ (t.text = "." ∨ t.text = ":")

instance (t : Token) : Decidable t.NeedsContext :=
  inferInstanceAs (Decidable (_ ∨ _))

/-- A text of one piece is one token. -/
theorem tokenize_of_lex {t : Token} (h : lex t.text.toList = [t.piece]) :
    tokenize t.text
      = [t.alone, .eof (Position.origin.afterText t.text) t.text.utf8ByteSize] := by
  have hbytes : Token.byteCount t.text.toList = t.text.utf8ByteSize := by
    rw [byteCount_eq, String.ofList_toList]
  rw [tokenize_eq, h]
  simp [tokensFrom, Piece.token, Piece.text, Token.piece, Token.alone,
    Position.past, bytesOf, Position.afterText, hbytes]

/-- The text of a token is read as that token and no other, and so is a value
that is such a text. -/
theorem tokenize_text_of_mem {text : String} {t : Token}
    (ht : t ∈ tokenize text) (heof : t.kind ≠ .eof)
    (hfree : ¬ t.NeedsContext) :
    tokenize t.text
        = [t.alone, .eof (Position.origin.afterText t.text) t.text.utf8ByteSize]
      ∧ (∀ owner, tokenizeFragment t.text owner = [t.alone.withOwner owner])
      ∧ ∀ (platform : Platform) (s : Parse.State) (r : Token),
        s.source.referenceValue? platform (Preprocess.referenceName r.text) r
            = some t.text →
          s.valueTokens platform r = [Parse.standingFor r t] := by
  have hmem : t.piece ∈ lex text.toList := by
    rw [tokenize_eq] at ht
    rcases List.mem_append.1 ht with ht | ht
    · exact (mem_tokensFrom ht).1
    · rw [List.mem_singleton.1 ht] at heof
      exact absurd rfl heof
  have hpiece : ¬ t.piece.NeedsContext := by
    have htext : ∀ {s : String}, t.text.toList = s.toList → t.text = s :=
      fun h => String.toList_injective h
    rintro (hkind | ⟨hkind, hchars⟩)
    · exact hfree (Or.inl hkind)
    · exact hfree (Or.inr ⟨hkind, hchars.imp htext htext⟩)
  have htokens := tokenize_of_lex (lex_chars hmem hpiece)
  have hfragment : ∀ owner,
      tokenizeFragment t.text owner = [t.alone.withOwner owner] := by
    intro owner
    have hmark : t.alone.isEof = false := by
      simpa [Token.isEof, Token.alone] using heof
    have hend : (Token.eof (Position.origin.afterText t.text)
        t.text.utf8ByteSize).isEof = true := rfl
    unfold tokenizeFragment
    rw [htokens]
    simp [hmark, hend]
  refine ⟨htokens, hfragment, ?_⟩
  intro platform s r hvalue
  unfold Parse.State.valueTokens
  rw [hvalue]
  dsimp only [Option.getD_some]
  rw [hfragment]
  -- a token that is put in takes its place from the reference
  simp only [List.map_cons, List.map_nil, Parse.standingFor, Token.alone,
    Token.withOwner]
  split <;> rfl

/-- A string that nothing closes, by itself and as the value of a name: the
tilde escapes the one quote it has, and the braces are part of it. -/
theorem tokenize_text_of_open_string :
    let t : Token :=
      { kind := .string, text := "'it~'s {&b} ", start := ⟨0, 2⟩
        range := ⟨2, 14⟩, owner := 0 }
    let r : Token :=
      { kind := .reference, text := "{&a}", start := ⟨7, 0⟩
        range := ⟨80, 84⟩, owner := 0 }
    let file : ChainFile :=
      { name := "<input>", path := none, trigger := none, parent := none
        rootLine := 0 }
    let s : Parse.State :=
      { source :=
        { cursor := .ofTokens [r], chain := ⟨#[file]⟩, cache := {}
          definitions := .defineGlobal {} "A" t.text } }
    (t ∈ tokenize "x='it~'s {&b} " ∧ ¬ t.NeedsContext)
      ∧ tokenize t.text = [t.alone, .eof ⟨0, 12⟩ 12]
      ∧ tokenizeFragment t.text 3 = [t.alone.withOwner 3]
      ∧ s.valueTokens {} r = [Parse.standingFor r t] := by
  intro t r file s
  have ht : t ∈ tokenize "x='it~'s {&b} " := by decide +kernel
  have hfree : ¬ t.NeedsContext := by decide
  have hend : Token.eof (Position.origin.afterText t.text) t.text.utf8ByteSize
      = .eof ⟨0, 12⟩ 12 := by decide +kernel
  have hvalue : s.source.referenceValue? {} (Preprocess.referenceName r.text) r
      = some t.text := by decide +kernel
  obtain ⟨halone, hfragment, hput⟩ := tokenize_text_of_mem ht (by decide) hfree
  rw [hend] at halone
  exact ⟨⟨ht, hfree⟩, halone, hfragment 3, hput {} s r hvalue⟩

end AblOutline
