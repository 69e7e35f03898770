/-
Texts without their comments. Each character of a comment gives way to a space,
but those of its line breaks stay; a comment right behind a dot or a colon that
ends no statement is left as it is, since white space there would make it one
that does.

    RUN a (1). // see b            RUN a (1).
    x = p.q/* the q of p */ + 1    x = p.q              + 1

The two texts have the same pieces, but where the one has some pieces without
meaning between two with meaning, the other may have others (`UpToGaps`).
-/
import AblOutline.Proofs.Comments.Lexemes
import AblOutline.Proofs.Lexing.Tiling
import AblOutline.Proofs.Masked.Looking

namespace AblOutline

open Lexeme

-- ================================================================= blanking

/-- What stands for a character of a comment. -/
def blankFor (c : Char) : Char := if c = '\r' ∨ c = '\n' then c else ' '

/-- The token is a dot or a colon that ends no statement. -/
def Token.isPoint (t : Token) : Bool := t.isSymbol "." || t.isSymbol ":"

/-- The texts of tokens without their comments; `bound` says that a dot or a
colon that ends no statement stands right before them. -/
def textsWithoutComments (bound : Bool) : List Token → List String
  | [] => []
  | t :: ts =>
    (if t.kind = .comment ∧ bound = false then
        String.ofList (t.text.toList.map blankFor)
      else t.text)
      :: textsWithoutComments t.isPoint ts

/-- The text without its comments. -/
def withoutComments (text : String) : String :=
  String.join (textsWithoutComments false (tokenize text))

namespace Piece

/-- The piece is a dot or a colon that ends no statement. -/
def isPoint (p : Piece) : Bool := p.isSymbol "." || p.isSymbol ":"

end Piece

/-- The characters of pieces without their comments. -/
def blanked (bound : Bool) : List Piece → List Char
  | [] => []
  | p :: ps =>
    (if p.kind = .comment ∧ bound = false then p.chars.map blankFor else p.chars)
      ++ blanked p.isPoint ps

theorem blanked_cons (bound : Bool) (p : Piece) (ps : List Piece) :
    blanked bound (p :: ps)
      = (if p.kind = .comment ∧ bound = false then p.chars.map blankFor
          else p.chars) ++ blanked p.isPoint ps := rfl

-- ================================================================ relations

/-- The same pieces, but for those without meaning between the others. -/
inductive UpToGaps : List Piece → List Piece → Prop where
  | nil : UpToGaps [] []
  | told {p : Piece} {ps ps' : List Piece} (hp : p.kind.isTrivia = false)
      (h : UpToGaps ps ps') : UpToGaps (p :: ps) (p :: ps')
  | gap {gap gap' ps ps' : List Piece} (hgap : IsGap gap ∧ gap ≠ [])
      (hgap' : IsGap gap' ∧ gap' ≠ [])
      (hplace : ∀ start : Position, start.past gap = start.past gap')
      (h : UpToGaps ps ps') : UpToGaps (gap ++ ps) (gap' ++ ps')

section Blanks

variable {previous previous' : Option TokenKind} {bound : Bool}
  {c : Char} {cs cs' rest : List Char} {ps : List Piece}

/-- White space and line breaks. -/
def isWhite (c : Char) : Bool := isGap c || c == '\r' || c == '\n'

/-- A character is kept or gives way to a space, and a line break is kept. -/
def Blanks (c c' : Char) : Prop := c' = c ∨ ¬ IsBreak c ∧ c' = ' '

theorem blanks_blankFor (c : Char) : Blanks c (blankFor c) := by
  unfold Blanks blankFor
  split
  · exact Or.inl rfl
  · rename_i hc
    exact Or.inr ⟨hc, rfl⟩

theorem isWhite_blankFor (c : Char) : isWhite (blankFor c) = true := by
  unfold blankFor
  split
  · rename_i hc
    rcases hc with rfl | rfl <;> rfl
  · rfl

theorem Blanks.of_isBreak {c' : Char} (h : Blanks c c') (hc : IsBreak c) :
    c' = c := h.resolve_right fun hblank => hblank.1 hc

theorem Blanks.not_isBreak {c' : Char} (h : Blanks c c') (hc : ¬ IsBreak c) :
    ¬ IsBreak c' := by
  rcases h with rfl | ⟨-, rfl⟩
  · exact hc
  · decide

/-- What is left of a text keeps its place. -/
theorem after_blanks (h : List.Forall₂ Blanks cs cs') (p : Position) :
    p.after cs = p.after cs' := by
  fun_induction Position.after p cs generalizing cs' with
  | case1 p =>
      cases h
      rfl
  | case2 p rest ih =>
      obtain _ | ⟨hc, _ | ⟨hd, h⟩⟩ := h
      cases hc.of_isBreak (by decide)
      cases hd.of_isBreak (by decide)
      rw [Position.after, ih h]
  | case3 p c rest hne hc ih =>
      obtain _ | @⟨_, d, _, tail, hd, h⟩ := h
      cases hd.of_isBreak hc
      have hne' : ∀ more, c = '\r' → tail = '\n' :: more → False := by
        rintro more rfl rfl
        obtain _ | @⟨x, _, xs, _, hx, -⟩ := h
        rcases hx with rfl | ⟨-, hx⟩
        · exact hne xs rfl rfl
        · exact absurd hx (by decide)
      rw [Position.after, if_pos hc, ih h]
      exact hne'
  | case4 p c rest hne hc ih =>
      obtain _ | @⟨_, d, _, tail, hd, h⟩ := h
      have hd' : ¬ (d = '\r' ∨ d = '\n') := hd.not_isBreak hc
      rw [Position.after, if_neg hd', ih h]
      rintro more rfl -
      exact hd' (Or.inl rfl)

theorem forall₂_blanked (bound : Bool) (ps : List Piece) :
    List.Forall₂ Blanks (charsOf ps) (blanked bound ps) := by
  induction ps generalizing bound with
  | nil => exact .nil
  | cons p ps ih =>
      refine List.rel_append ?_ (ih _)
      split
      · exact List.forall₂_map_right_iff.2
          (List.forall₂_same.2 fun c _ => blanks_blankFor c)
      · exact List.forall₂_same.2 fun c _ => Or.inl rfl

-- ================================================================== lexemes

/-- Only a slash begins a comment. -/
theorem eq_slash_of_comment
    (h : ((first c rest).inContext previous c rest).kind = .comment) :
    c = '/' := by
  rcases first_cases c rest with
    ⟨-, hfirst⟩ | ⟨hc, -⟩ | ⟨-, hfirst⟩ | hfirst
  · rw [hfirst] at h
    cases h
  · exact hc
  · refine absurd h (inContext_kind_ne (by decide) ?_)
    rw [hfirst]
    unfold ofBrace
    dsimp only
    split <;> exact fun h => by cases h
  · exact absurd h (inContext_kind_ne (by decide) (hfirst _ (by decide)))

/-- Blanks are white space, as far as it goes. -/
theorem blank_cases
    (h : ((first c rest).inContext previous c rest).kind = .blank) :
    isGap c = true
      ∧ (first c rest).inContext previous c rest
        = ⟨.blank, leading isGap rest⟩ := by
  rcases first_cases c rest with
    ⟨hc, hfirst⟩ | ⟨-, hfirst⟩ | ⟨-, hfirst⟩ | hfirst
  · rw [hfirst]
    exact ⟨hc, rfl⟩
  · refine absurd h (inContext_kind_ne (by decide) ?_)
    rw [hfirst]
    unfold ofSlash
    split <;> exact fun h => by cases h
  · refine absurd h (inContext_kind_ne (by decide) ?_)
    rw [hfirst]
    unfold ofBrace
    dsimp only
    split <;> exact fun h => by cases h
  · exact absurd h (inContext_kind_ne (by decide) (hfirst _ (by decide)))

/-- What is white is told from what has a meaning by its first character. -/
theorem trivia_of_isWhite (h : isWhite c = true) :
    ((first c rest).inContext previous c rest).kind.isTrivia = true := by
  unfold isWhite at h
  rw [Bool.or_eq_true, Bool.or_eq_true, beq_iff_eq, beq_iff_eq] at h
  rcases h with (hc | rfl) | rfl
  · have hfirst : first c rest = ⟨.blank, leading isGap rest⟩ := by
      unfold first
      exact if_pos hc
    rw [hfirst]
    rfl
  · rfl
  · rfl

theorem isWhite_of_trivia {p : Piece} (h : p ∈ lexFrom previous cs)
    (hp : p.kind.isTrivia = true) (hk : p.kind ≠ .comment) :
    ∀ c ∈ p.chars, isWhite c = true := by
  have hgap : ∀ d, isGap d = true → isWhite d = true := by
    intro d hd
    unfold isWhite
    rw [hd]
    rfl
  fun_induction lexFrom previous cs with
  | case1 => cases h
  | case2 previous c rest lexeme ih =>
      rcases List.mem_cons.1 h with rfl | h
      · dsimp only at hp hk ⊢
        cases hkind : lexeme.kind with
        | blank =>
            obtain ⟨hc, hl⟩ := blank_cases hkind
            rw [show lexeme = _ from hl]
            intro d hd
            rcases List.mem_cons.1 hd with rfl | hd
            · exact hgap _ hc
            · have hall : rest.take (leading isGap rest) = rest.takeWhile isGap :=
                List.prefix_iff_eq_take.1 (List.takeWhile_prefix _) |>.symm
              rw [hall] at hd
              exact hgap d (List.mem_takeWhile_imp hd)
        | eol =>
            rcases eol_cases hkind with ⟨rfl, hl⟩ | ⟨rfl, hl⟩
            · rw [show lexeme = _ from hl]
              intro d hd
              rw [List.mem_singleton.1 hd]
              rfl
            · rw [show lexeme = _ from hl]
              intro d hd
              rcases List.mem_cons.1 hd with rfl | hd
              · rfl
              · cases rest with
                | nil => cases hd
                | cons x rest =>
                    by_cases hx : x = '\n'
                    · rw [hx] at hd
                      rw [List.mem_singleton.1 hd]
                      rfl
                    · have hno : begins (· == '\n') (x :: rest) = false :=
                        beq_false_of_ne hx
                      rw [hno] at hd
                      cases hd
        | comment => exact absurd hkind hk
        | _ => rw [hkind] at hp; cases hp
      · exact ih h

-- ==================================================================== gaps

section Gaps

variable {w r : List Char}

theorem leading_le {p : Char → Bool} (hr : begins p r = false) :
    leading p (w ++ r) ≤ w.length := by
  induction w with
  | nil =>
      cases r with
      | nil => exact Nat.le_refl _
      | cons d r =>
          have hd : p d = false := hr
          rw [List.nil_append, leading_cons, hd]
          exact Nat.le_refl _
  | cons d w ih =>
      rw [List.cons_append, leading_cons]
      split
      · exact Nat.succ_le_succ ih
      · exact Nat.zero_le _

/-- A white character is read with white characters only. -/
theorem inContext_white (hc : isWhite c = true)
    (hr : begins isWhite r = false) :
    ∃ l : Lexeme, l.extent ≤ w.length ∧ l.kind.isTrivia = true
      ∧ ∀ previous, (first c (w ++ r)).inContext previous c (w ++ r) = l := by
  have hsort : ∀ p : Char → Bool, (∀ d, p d = true → isWhite d = true) →
      begins p r = false := by
    intro p hp
    cases r with
    | nil => rfl
    | cons d r =>
        have hd : isWhite d = false := hr
        refine Bool.eq_false_iff.2 fun h => ?_
        rw [hp d h] at hd
        cases hd
  unfold isWhite at hc
  rw [Bool.or_eq_true, Bool.or_eq_true, beq_iff_eq, beq_iff_eq] at hc
  rcases hc with (hc | rfl) | rfl
  · refine ⟨⟨.blank, leading isGap (w ++ r)⟩,
      leading_le (hsort _ fun d hd => ?_), rfl, fun previous => ?_⟩
    · unfold isWhite
      rw [hd]
      rfl
    · have hfirst : first c (w ++ r) = ⟨.blank, leading isGap (w ++ r)⟩ := by
        unfold first
        exact if_pos hc
      rw [hfirst]
      rfl
  · refine ⟨⟨.eol, if begins (· == '\n') (w ++ r) then 1 else 0⟩, ?_, rfl,
      fun _ => rfl⟩
    cases w with
    | nil =>
        have hno := hsort (· == '\n') fun d hd => by
          rw [eq_of_beq hd]
          rfl
        rw [List.nil_append, hno]
        exact Nat.le_refl _
    | cons d w =>
        dsimp only
        split
        · exact Nat.succ_le_succ (Nat.zero_le _)
        · exact Nat.zero_le _
  · exact ⟨⟨.eol, 0⟩, Nat.zero_le _, rfl, fun _ => rfl⟩

/-- White characters before a token that has a meaning. -/
theorem lexFrom_white (hw : ∀ d ∈ w, isWhite d = true)
    (hr : begins isWhite r = false)
    (hprevious : w = [] → previous ≠ some .string) :
    ∃ gap, IsGap gap ∧ charsOf gap = w
      ∧ lexFrom previous (w ++ r) = gap ++ lex r := by
  generalize hn : w.length = n
  induction n using Nat.strongRecOn generalizing w previous with
  | ind n ih =>
      cases w with
      | nil => exact ⟨[], nofun, rfl, lexFrom_eq_lex (hprevious rfl)⟩
      | cons c w =>
          obtain ⟨hc, hrest⟩ := List.forall_mem_cons.1 hw
          obtain ⟨l, hle, htrivia, hl⟩ := inContext_white (w := w) hc hr
          have hshort : (w.drop l.extent).length < n := by
            rw [← hn, List.length_drop, List.length_cons]
            omega
          have hstring : some l.kind ≠ some .string := by
            rintro h
            rw [Option.some.inj h] at htrivia
            cases htrivia
          obtain ⟨gap, hgap, hchars, hlex⟩ := ih _ hshort
            (fun d hd => hrest d (List.mem_of_mem_drop hd))
            (fun _ => hstring) rfl
          refine ⟨⟨l.kind, c :: w.take l.extent⟩ :: gap, ?_, ?_, ?_⟩
          · exact List.forall_mem_cons.2 ⟨htrivia, hgap⟩
          · show c :: w.take l.extent ++ charsOf gap = c :: w
            rw [hchars, List.cons_append, List.take_append_drop]
          · rw [List.cons_append, lexFrom, hl previous,
              List.take_append_of_le_length hle,
              List.drop_append_of_le_length hle, hlex]
            rfl

/-- The pieces of a text up to the first one with a meaning, and the others. -/
theorem lex_gap (cs : List Char) :
    ∃ gap r, IsGap gap ∧ lex cs = gap ++ lex r
      ∧ ∀ p ps, lex r = p :: ps → p.kind.isTrivia = false := by
  generalize hn : cs.length = n
  induction n using Nat.strongRecOn generalizing cs with
  | ind n ih =>
      cases cs with
      | nil =>
          refine ⟨[], [], nofun, rfl, fun p ps h => ?_⟩
          rw [lex, lexFrom] at h
          cases h
      | cons c rest =>
          have hlex : ∀ l, (first c rest).inContext none c rest = l →
              lex (c :: rest) = ⟨l.kind, c :: rest.take l.extent⟩
                :: lexFrom (some l.kind) (rest.drop l.extent) := by
            rintro l rfl
            rw [lex, lexFrom]
          replace hlex := hlex _ rfl
          generalize (first c rest).inContext none c rest = l at hlex
          cases hk : l.kind.isTrivia with
          | false =>
              refine ⟨[], c :: rest, nofun, rfl, fun p ps h => ?_⟩
              rw [hlex] at h
              rw [← (List.cons.inj h).1]
              exact hk
          | true =>
              have hshort : (rest.drop l.extent).length < n := by
                rw [← hn, List.length_drop, List.length_cons]
                omega
              have hstring : some l.kind ≠ some .string := by
                rintro h
                rw [Option.some.inj h] at hk
                cases hk
              obtain ⟨gap, r, hgap, hrest, hr⟩ := ih _ hshort _ rfl
              refine ⟨⟨l.kind, c :: rest.take l.extent⟩ :: gap, r,
                List.forall_mem_cons.2 ⟨hk, hgap⟩, ?_, hr⟩
              rw [hlex, lexFrom_eq_lex hstring, hrest]
              rfl

end Gaps

-- ================================================================ the rest

section Rest

variable {r' : List Char}

/-- A dot or a colon before a slash is a symbol. -/
theorem inContext_point (hc : c = '.' ∨ c = ':')
    (hrest : rest.head? = some '/') :
    (first c rest).inContext previous c rest = ⟨.symbol, 0⟩ := by
  cases rest with
  | nil => cases hrest
  | cons d rest =>
      obtain rfl : d = '/' := Option.some.inj hrest
      have hfirst : first c ('/' :: rest) = ⟨.symbol, 0⟩ := by
        rcases hc with rfl | rfl <;> rfl
      have hdescriptor : begins Char.isAlphanum ('/' :: rest) = false := rfl
      have hends : endsStatement ('/' :: rest) = false := rfl
      rw [hfirst]
      unfold inContext
      simp [hdescriptor, hends]

/-- A piece is the same in both texts where they are veiled behind it. -/
theorem lexFrom_veiled {l : Lexeme}
    (hl : (first c rest).inContext previous c rest = l)
    (hprevious : previous = some .string ↔ previous' = some .string)
    (hgap : isGap c = false) (hbrace : c ≠ '\x7b')
    (hpoint : c = '.' ∨ c = ':' → l = ⟨.symbol, 0⟩ → r'.head? = rest.head?)
    (hv : Veiled (rest.drop l.extent) r') :
    lexFrom previous' (c :: rest.take l.extent ++ r')
      = ⟨l.kind, c :: rest.take l.extent⟩ :: lexFrom (some l.kind) r' := by
  have hsame : (first c (rest.take l.extent ++ r')).inContext previous' c
      (rest.take l.extent ++ r') = l := by
    rw [← hl]
    refine inContext_veiled hprevious hgap hbrace (fun hc hslash => ?_)
      (.of_drop (hl.symm ▸ hv))
    have hsymbol : (first c rest).inContext previous c rest = ⟨.symbol, 0⟩ :=
      inContext_point hc hslash
    rw [hsymbol]
    exact (hpoint hc (hl.symm.trans hsymbol)).trans hslash
  have hcut : (rest.take l.extent ++ r').take l.extent = rest.take l.extent
      ∧ (rest.take l.extent ++ r').drop l.extent = r' := by
    by_cases hle : l.extent ≤ rest.length
    · exact ⟨List.take_left' (List.length_take_of_le hle),
        List.drop_left' (List.length_take_of_le hle)⟩
    · have hshort : rest.length ≤ l.extent := Nat.le_of_not_le hle
      rw [List.drop_eq_nil_of_le hshort] at hv
      cases hv
      rw [List.append_nil, List.take_take, Nat.min_self]
      exact ⟨rfl, List.drop_eq_nil_of_le (List.length_take_le _ _)⟩
  rw [List.cons_append, lexFrom, hsame, hcut.1, hcut.2]

theorem veiled_blanked (bound : Bool) (previous : Option TokenKind)
    (cs : List Char) : Veiled cs (blanked bound (lexFrom previous cs)) := by
  fun_induction lexFrom previous cs generalizing bound with
  | case1 => exact .nil
  | case2 previous c rest lexeme ih =>
      unfold blanked
      dsimp only
      split
      · rename_i hcomment
        obtain rfl : c = '/' := eq_slash_of_comment hcomment.1
        exact .veil _ _
      · have hwhole : c :: rest
            = c :: rest.take lexeme.extent ++ rest.drop lexeme.extent := by
          rw [List.cons_append, List.take_append_drop]
        rw [hwhole]
        exact (ih _).append _

/-- Behind a dot or a colon that ends no statement nothing is blanked. -/
theorem head?_blanked (previous : Option TokenKind) (cs : List Char) :
    (blanked true (lexFrom previous cs)).head? = cs.head? := by
  cases cs with
  | nil =>
      rw [lexFrom]
      rfl
  | cons c rest =>
      rw [lexFrom]
      unfold blanked
      rw [if_neg fun h => Bool.noConfusion h.2]
      rfl

theorem ne_brace {l : Lexeme}
    (hl : (first c rest).inContext previous c rest = l)
    (hplain : Piece.IsPlain ⟨l.kind, c :: rest.take l.extent⟩) :
    c ≠ '\x7b' := by
  rintro rfl
  have hfirst : (first '\x7b' rest).inContext previous '\x7b' rest
      = ofBrace rest := by
    have hne : ofBrace rest ≠ ⟨.symbol, 0⟩ := by
      unfold ofBrace
      intro h
      have hkind := congrArg Lexeme.kind h
      dsimp only at hkind
      split at hkind <;> cases hkind
    exact if_neg hne
  rw [hfirst] at hl
  obtain ⟨href, hinc⟩ := hplain
  rw [← hl] at href hinc
  unfold ofBrace at href hinc
  dsimp only at href hinc
  split at href
  · exact href rfl
  · rename_i hkind
    rw [if_neg hkind] at hinc
    exact hinc rfl

/-- The first piece of a text stays where it is not blanked and not white. -/
theorem lexFrom_kept {l : Lexeme} {p : Piece}
    (hl : (first c rest).inContext previous c rest = l)
    (hp : p = ⟨l.kind, c :: rest.take l.extent⟩)
    (hprevious : previous = some .string ↔ previous' = some .string)
    (hgap : isGap c = false) (hplain : p.IsPlain) :
    lexFrom previous' (p.chars
        ++ blanked p.isPoint (lexFrom (some l.kind) (rest.drop l.extent)))
      = p :: lexFrom (some l.kind)
          (blanked p.isPoint (lexFrom (some l.kind) (rest.drop l.extent))) := by
  subst hp
  refine lexFrom_veiled hl hprevious hgap (ne_brace hl hplain) ?_
    (veiled_blanked _ _ _)
  intro hc hsymbol
  have hpoint : Piece.isPoint ⟨l.kind, c :: rest.take l.extent⟩ = true := by
    rw [hsymbol]
    rcases hc with rfl | rfl <;> rfl
  rw [hpoint, head?_blanked, hsymbol]
  rfl

-- ==================================================================== runs

variable {gap : List Piece}

theorem isPoint_of_trivia {p : Piece} (h : p.kind.isTrivia = true) :
    p.isPoint = false := by
  unfold Piece.isPoint Piece.isSymbol
  cases hk : p.kind with
  | symbol => rw [hk] at h; cases h
  | _ => rfl

/-- Behind a gap a comment is blanked. -/
theorem blanked_append (hgap : IsGap gap) (hbound : gap = [] → bound = false) :
    blanked bound (gap ++ ps) = blanked bound gap ++ blanked false ps := by
  induction gap generalizing bound with
  | nil =>
      rw [hbound rfl]
      rfl
  | cons p gap ih =>
      obtain ⟨hp, hrest⟩ := List.forall_mem_cons.1 hgap
      rw [List.cons_append, blanked_cons, blanked_cons, isPoint_of_trivia hp,
        List.append_assoc, ih hrest fun _ => rfl]

/-- A gap is white once its comments are blanked. -/
theorem isWhite_blanked (hgap : IsGap gap)
    (hwhite : ∀ p ∈ gap, p.kind ≠ .comment → ∀ d ∈ p.chars, isWhite d = true)
    (hfirst : bound = true → ∀ p ∈ gap.head?, p.kind ≠ .comment) :
    ∀ d ∈ blanked bound gap, isWhite d = true := by
  induction gap generalizing bound with
  | nil => nofun
  | cons p gap ih =>
      obtain ⟨hp, hrest⟩ := List.forall_mem_cons.1 hgap
      obtain ⟨hchars, hmore⟩ := List.forall_mem_cons.1 hwhite
      have hpoint := isPoint_of_trivia hp
      intro d hd
      rcases List.mem_append.1 hd with hd | hd
      · split at hd
        · obtain ⟨x, -, rfl⟩ := List.mem_map.1 hd
          exact isWhite_blankFor x
        · rename_i hkept
          refine hchars (fun hk => ?_) d hd
          cases bound with
          | false => exact hkept ⟨hk, rfl⟩
          | true => exact hfirst rfl p rfl hk
      · rw [hpoint] at hd
        exact ih hrest hmore (fun h => Bool.noConfusion h) d hd

/-- What has a meaning is not white. -/
theorem begins_blanked {r : List Char}
    (hr : ∀ p ps, lex r = p :: ps → p.kind.isTrivia = false) :
    begins isWhite (blanked false (lex r)) = false := by
  cases r with
  | nil =>
      rw [lex, lexFrom]
      rfl
  | cons c rest =>
      have hkind := hr _ _ (by rw [lex, lexFrom])
      dsimp only at hkind
      rw [lex, lexFrom]
      unfold blanked
      dsimp only
      rw [if_neg fun h => ?_]
      · refine Bool.eq_false_iff.2 fun hc => ?_
        rw [trivia_of_isWhite hc] at hkind
        cases hkind
      · rw [h.1] at hkind
        cases hkind

/-- Behind a dot, the comment that begins a gap is left as it is. -/
theorem lexFrom_gap_comment {q : Piece} {r : List Char}
    (hprevious : previous = some .string ↔ previous' = some .string)
    (hlex : lexFrom previous cs = (q :: gap) ++ lex r) (hgap : IsGap (q :: gap))
    (hk : q.kind = .comment)
    (hwhite : ∀ d ∈ blanked false gap, isWhite d = true)
    (hbegins : begins isWhite (blanked false (lex r)) = false) :
    ∃ gap', IsGap gap' ∧ charsOf gap' = blanked true (q :: gap)
      ∧ lexFrom previous' (blanked true (lexFrom previous cs))
        = gap' ++ lex (blanked false (lex r)) := by
  obtain ⟨hq, hrest⟩ := List.forall_mem_cons.1 hgap
  have hpoint := isPoint_of_trivia hq
  cases cs with
  | nil =>
      rw [lexFrom] at hlex
      cases hlex
  | cons c rest =>
      rw [lexFrom] at hlex ⊢
      obtain ⟨hpiece, htail⟩ := List.cons.inj hlex
      generalize hl : (first c rest).inContext previous c rest = l
        at hpiece htail
      have hcomment : ((first c rest).inContext previous c rest).kind
          = .comment := by
        rw [hl, ← hk, ← hpiece]
      obtain rfl : c = '/' := eq_slash_of_comment hcomment
      have hfirst := lexFrom_kept hl hpiece.symm hprevious rfl
        ⟨by rw [hk]; decide, by rw [hk]; decide⟩
      rw [hpoint, htail] at hfirst
      have hstring : some l.kind ≠ some .string := by
        rw [← show q.kind = l.kind from congrArg Piece.kind hpiece.symm, hk]
        decide
      have hmore : blanked false (gap ++ lex r)
          = blanked false gap ++ blanked false (lex r) :=
        blanked_append hrest fun _ => rfl
      obtain ⟨gap', hgap', hchars, hlex'⟩ :=
        lexFrom_white hwhite hbegins fun _ => hstring
      refine ⟨q :: gap', List.forall_mem_cons.2 ⟨hq, hgap'⟩, ?_, ?_⟩
      · rw [blanked_cons, if_neg fun h => Bool.noConfusion h.2, hpoint,
          ← hchars]
        rfl
      · rw [hpiece, htail, blanked_cons,
          if_neg fun h => Bool.noConfusion h.2, hpoint]
        refine hfirst.trans ?_
        rw [List.append_eq, hmore, hlex']
        rfl

/-- A gap, and the gap that is left of it. -/
theorem lexFrom_gap {r : List Char} (bound : Bool)
    (hprevious : previous = some .string ↔ previous' = some .string)
    (hlex : lexFrom previous cs = gap ++ lex r) (hgap : IsGap gap)
    (hne : gap ≠ [])
    (hr : ∀ p ps, lex r = p :: ps → p.kind.isTrivia = false) :
    ∃ gap', IsGap gap' ∧ charsOf gap' = blanked bound gap
      ∧ lexFrom previous' (blanked bound (lexFrom previous cs))
        = gap' ++ lex (blanked false (lex r)) := by
  have hwhite : ∀ p ∈ gap, p.kind ≠ .comment →
      ∀ d ∈ p.chars, isWhite d = true := fun p hp =>
    isWhite_of_trivia (hlex ▸ List.mem_append_left _ hp) (hgap p hp)
  have hbegins := begins_blanked hr
  by_cases hkept : bound = true ∧ ∃ p ∈ gap.head?, p.kind = .comment
  · obtain ⟨rfl, p, hp, hk⟩ := hkept
    cases gap with
    | nil => cases hp
    | cons q gap =>
        obtain rfl : q = p := Option.some.inj hp
        refine lexFrom_gap_comment hprevious hlex hgap hk ?_ hbegins
        exact isWhite_blanked (List.forall_mem_cons.1 hgap).2
          (List.forall_mem_cons.1 hwhite).2 fun h => absurd h Bool.false_ne_true
  · -- all of it is blanked, and there is something of it
    rw [hlex, blanked_append hgap fun h => absurd h hne]
    refine lexFrom_white (isWhite_blanked hgap hwhite fun hb p hp hk =>
      hkept ⟨hb, p, hp, hk⟩) hbegins fun hw => ?_
    have hchars := forall₂_blanked bound gap
    rw [hw, List.forall₂_nil_right_iff] at hchars
    obtain ⟨p, hp⟩ := List.exists_mem_of_ne_nil gap hne
    have hp' : p ∈ lexFrom previous cs := hlex ▸ List.mem_append_left _ hp
    exact absurd (List.flatMap_eq_nil_iff.1 hchars p hp)
      (lexFrom_chars_ne_nil hp')

/-- What has a meaning does not begin with what separates. -/
theorem isGap_of_told
    (h : ((first c rest).inContext previous c rest).kind.isTrivia = false) :
    isGap c = false := by
  refine Bool.eq_false_iff.2 fun hc => ?_
  have hwhite : isWhite c = true := by
    unfold isWhite
    rw [hc]
    rfl
  rw [trivia_of_isWhite hwhite] at h
  cases h

/-- Behind a gap there is less left. -/
theorem length_lt_of_gap {q : Piece} {r : List Char}
    (hlex : lexFrom previous cs = (q :: gap) ++ lex r) (hq : q.chars ≠ []) :
    r.length < cs.length := by
  have hcs := congrArg List.length (charsOf_lexFrom previous cs)
  have hr := congrArg List.length (charsOf_lexFrom none r)
  have hlength := List.length_pos_of_ne_nil hq
  rw [hlex, charsOf, List.flatMap_append, List.length_append,
    List.flatMap_cons, List.length_append] at hcs
  unfold charsOf at hr
  unfold lex at hcs
  omega

end Rest

end Blanks

/-- The pieces of a text and of the text without its comments. -/
theorem upToGaps_blanked {previous previous' : Option TokenKind} (bound : Bool)
    (hprevious : previous = some .string ↔ previous' = some .string)
    {cs : List Char} (hplain : ∀ p ∈ lexFrom previous cs, p.IsPlain) :
    UpToGaps (lexFrom previous cs)
      (lexFrom previous' (blanked bound (lexFrom previous cs))) := by
  generalize hn : cs.length = n
  induction n using Nat.strongRecOn generalizing cs previous previous' bound with
  | ind n ih =>
      cases cs with
      | nil =>
          rw [lexFrom]
          show UpToGaps [] (lexFrom previous' [])
          rw [lexFrom]
          exact .nil
      | cons c rest =>
          have hfirst : ∀ l, (first c rest).inContext previous c rest = l →
              lexFrom previous (c :: rest)
                = ⟨l.kind, c :: rest.take l.extent⟩
                  :: lexFrom (some l.kind) (rest.drop l.extent) := by
            rintro l rfl
            rw [lexFrom]
          replace hfirst := hfirst _ rfl
          generalize hl : (first c rest).inContext previous c rest = l at hfirst
          cases hk : l.kind.isTrivia with
          | false =>
              have hgap : isGap c = false := isGap_of_told (hl ▸ hk)
              rw [hfirst] at hplain ⊢
              obtain ⟨hp, hrest⟩ := List.forall_mem_cons.1 hplain
              have hkept : l.kind ≠ .comment := by
                intro h
                rw [h] at hk
                cases hk
              rw [blanked_cons, if_neg fun h => hkept h.1,
                lexFrom_kept hl rfl hprevious hgap hp]
              refine .told hk (ih _ ?_ _ Iff.rfl hrest rfl)
              rw [← hn, List.length_drop, List.length_cons]
              omega
          | true =>
              have hstring : some l.kind ≠ some .string := by
                rintro h
                rw [Option.some.inj h] at hk
                cases hk
              obtain ⟨gap, r, hgap, hrest, hr⟩ := lex_gap (rest.drop l.extent)
              have hlex : lexFrom previous (c :: rest)
                  = (⟨l.kind, c :: rest.take l.extent⟩ :: gap) ++ lex r := by
                rw [hfirst, lexFrom_eq_lex hstring, hrest]
                rfl
              have hall : IsGap (⟨l.kind, c :: rest.take l.extent⟩ :: gap) :=
                List.forall_mem_cons.2 ⟨hk, hgap⟩
              obtain ⟨gap', hgap', hchars, hlex'⟩ := lexFrom_gap bound
                hprevious hlex hall (List.cons_ne_nil _ _) hr
              have hblanks := forall₂_blanked bound
                (⟨l.kind, c :: rest.take l.extent⟩ :: gap)
              have hne : gap' ≠ [] := by
                rintro rfl
                rw [← hchars] at hblanks
                cases hblanks
              have hshort : r.length < n :=
                hn ▸ length_lt_of_gap hlex (List.cons_ne_nil _ _)
              rw [hlex', hlex]
              refine .gap ⟨hall, List.cons_ne_nil _ _⟩ ⟨hgap', hne⟩
                (fun start => ?_) (ih _ hshort false Iff.rfl (fun p hp =>
                  hplain p (hlex ▸ List.mem_append_right _ hp)) rfl)
              rw [past_of_append hlex, past_of_append hlex', hchars]
              exact after_blanks hblanks start

-- ================================================================== tokens

theorem Token.isPoint_piece (t : Token) : t.isPoint = t.piece.isPoint := by
  unfold Token.isPoint Piece.isPoint
  rw [isSymbol_piece, isSymbol_piece]

theorem textsWithoutComments_chars (bound : Bool) (ts : List Token) :
    (textsWithoutComments bound ts).flatMap String.toList
      = blanked bound (ts.map (·.piece)) := by
  induction ts generalizing bound with
  | nil => rfl
  | cons t ts ih =>
      rw [textsWithoutComments, List.flatMap_cons, ih, List.map_cons,
        blanked_cons, t.isPoint_piece]
      congr 1
      show _ = if t.kind = .comment ∧ bound = false then
        t.text.toList.map blankFor else t.text.toList
      split
      · exact String.toList_ofList
      · rfl

/-- The end mark adds nothing. -/
theorem blanked_concat (bound : Bool) (ps : List Piece) {e : Piece}
    (he : e.kind = .eof) (hchars : e.chars = []) :
    blanked bound (ps ++ [e]) = blanked bound ps := by
  induction ps generalizing bound with
  | nil =>
      rw [List.nil_append, blanked_cons, if_neg fun h => ?_, hchars]
      · rfl
      · rw [he] at h
        cases h.1
  | cons p ps ih =>
      rw [List.cons_append, blanked_cons, blanked_cons, ih]

/-- The characters that are left of a text. -/
theorem toList_withoutComments (text : String) :
    (withoutComments text).toList = blanked false (lex text.toList) := by
  unfold withoutComments
  rw [String.toList_join, textsWithoutComments_chars, tokenize_eq,
    List.map_append, map_piece_tokensFrom]
  exact blanked_concat false _ rfl rfl

/-- The pieces of a text with nothing to expand, and those of the text without
its comments. -/
theorem upToGaps_withoutComments {text : String}
    (hplain : ∀ p ∈ lex text.toList, p.IsPlain) :
    UpToGaps (lex text.toList) (lex (withoutComments text).toList) := by
  rw [toList_withoutComments]
  exact upToGaps_blanked false Iff.rfl hplain

end AblOutline
