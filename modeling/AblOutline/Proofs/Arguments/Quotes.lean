/-
Two readings of the quotes in an include directive. The lexer looks for the
brace that closes the directive and keeps track of quotes and braces on its way
(`Scan`); the words of the directive are cut with a track of their own
(`Opening`).

    {a.i "b { c" {&d e} 'it~f'}
        ^       ^      ^           the words part here, and nowhere else

As long as no tilde escapes the quote that is open, both tell the same of every
character (`Agrees.next`), so the words part at the white space that the lexer
meets outside of quotes and at the outermost depth, and what it reads between
quotes stays in one word (`words_of_inclusion`). To the lexer an escaped quote
closes nothing, to the words it does (`word_cut_at_escaped_quote`).
-/
import AblOutline.Proofs.Arguments
import AblOutline.Proofs.Lexing

namespace AblOutline

open Preprocess (Opening piecesFrom words betweenBraces)
open Text (isBlank)

-- ================================================================== scans

/-- How far the search for the closing brace is. -/
structure Scan where
  /-- The quote that is open. -/
  quote : Option Char := none
  /-- A tilde between quotes came last. -/
  escaped : Bool := false
  /-- The pairs of braces that are open, the outermost one among them. -/
  depth : Nat := 1
deriving DecidableEq, Repr

namespace Scan

/-- The scan after one more character. -/
def next : Scan → Char → Scan
  | ⟨some q, true, n⟩, _ => ⟨some q, false, n⟩
  | ⟨some q, false, n⟩, c =>
    if c = '~' then ⟨some q, true, n⟩
    else ⟨if c = q then none else some q, false, n⟩
  | ⟨none, _, n⟩, c =>
    if c = '"' ∨ c = '\x27' then ⟨some c, false, n⟩
    else if c = '\x7b' then ⟨none, false, n + 1⟩
    else if c = '\x7d' then ⟨none, false, n - 1⟩
    else ⟨none, false, n⟩

/-- The scan after `cs`. -/
def after (s : Scan) (cs : List Char) : Scan := cs.foldl next s

/-- Some pair of braces is open before each character of `cs`. -/
def StaysOpen : Scan → List Char → Prop
  | _, [] => True
  | s, c :: cs => s.depth ≠ 0 ∧ StaysOpen (s.next c) cs

/-- The character is white space outside of quotes and at the outermost
depth. -/
def isOuterBlank (s : Scan) (c : Char) : Bool :=
  isBlank c && s.quote.isNone && s.depth == 1

/-- The characters of `cs`, each with whether it is such white space. -/
def marked : Scan → List Char → List (Char × Bool)
  | _, [] => []
  | s, c :: cs => (c, s.isOuterBlank c) :: marked (s.next c) cs

/-- The texts of the stretches that are not empty. -/
def textsOf (stretches : List (List (Char × Bool))) : List (List Char) :=
  (stretches.map fun stretch => stretch.map (·.1)).filter (!·.isEmpty)

/-- What such white space leaves of `cs`, piece by piece. -/
noncomputable def parts (s : Scan) (cs : List Char) : List (List Char) :=
  textsOf ((s.marked cs).splitOnP (·.2))

/-- A quote is open before each character of `cs`. -/
def InQuotes : Scan → List Char → Prop
  | _, [] => True
  | s, c :: cs => s.quote ≠ none ∧ InQuotes (s.next c) cs

/-- The first character opens a quote, and all others are read between
quotes. -/
def Quotes (s : Scan) : List Char → Prop
  | [] => False
  | c :: cs => s.quote = none ∧ (s.next c).quote ≠ none ∧ InQuotes (s.next c) cs

/-- A tilde escapes the quote that is open. -/
def escapesQuote : Scan → List Char → Bool
  | _, [] => false
  | s, c :: cs => s.escaped && s.quote == some c || escapesQuote (s.next c) cs

variable {s : Scan} {c q : Char} {cs ds : List Char} {n : Nat}

@[simp] theorem after_nil : s.after [] = s := rfl

@[simp] theorem after_cons : s.after (c :: cs) = (s.next c).after cs := rfl

theorem after_append : s.after (cs ++ ds) = (s.after cs).after ds :=
  List.foldl_append

theorem staysOpen_append :
    s.StaysOpen (cs ++ ds) ↔ s.StaysOpen cs ∧ (s.after cs).StaysOpen ds := by
  induction cs generalizing s with
  | nil => exact ⟨fun h => ⟨trivial, h⟩, fun h => h.2⟩
  | cons c cs ih =>
      simp only [List.cons_append, StaysOpen, ih, after_cons, and_assoc]

theorem marked_append :
    s.marked (cs ++ ds) = s.marked cs ++ (s.after cs).marked ds := by
  induction cs generalizing s with
  | nil => rfl
  | cons c cs ih => simp only [List.cons_append, marked, ih, after_cons]

theorem map_fst_marked : (s.marked cs).map (·.1) = cs := by
  induction cs generalizing s with
  | nil => rfl
  | cons c cs ih => simp only [marked, List.map_cons, ih]

theorem textsOf_cons (stretch : List (Char × Bool))
    (stretches : List (List (Char × Bool))) :
    textsOf (stretch :: stretches)
      = (if stretch.isEmpty then [] else [stretch.map (·.1)])
        ++ textsOf stretches := by
  cases stretch <;> rfl

/-- Without a quote open, only a quotation mark opens one. -/
theorem quote_next (h : s.quote = none) (hnext : (s.next c).quote ≠ none) :
    c = '"' ∨ c = '\x27' := by
  obtain ⟨quote, escaped, n⟩ := s
  obtain rfl : quote = none := h
  refine Decidable.by_contra fun hc => hnext ?_
  simp only [next, if_neg hc]
  split
  · rfl
  · split <;> rfl

/-- What is read between quotes holds no outer white space. -/
theorem InQuotes.marked (h : s.InQuotes cs) :
    ∀ m ∈ s.marked cs, m.2 = false := by
  induction cs generalizing s with
  | nil => exact fun m hm => absurd hm List.not_mem_nil
  | cons c cs ih =>
      intro m hm
      rcases List.mem_cons.1 hm with rfl | hm
      · simp [isOuterBlank, h.1]
      · exact ih h.2 m hm

theorem Quotes.marked (h : s.Quotes cs) : ∀ m ∈ s.marked cs, m.2 = false := by
  cases cs with
  | nil => exact h.elim
  | cons c cs =>
      obtain ⟨hnone, hopens, hrest⟩ := h
      have hblank : isBlank c = false := by
        rcases quote_next hnone hopens with rfl | rfl <;> decide
      intro m hm
      rcases List.mem_cons.1 hm with rfl | hm
      · simp [isOuterBlank, hblank]
      · exact hrest.marked m hm

end Scan

-- ================================================================ tokens

section Tokens

open Lexeme

variable {previous : Option TokenKind} {rest cs : List Char} {s : Scan}

/-- What an opening brace takes of a text is read with a brace open up to its
last character. -/
theorem staysOpen_braceExtent (outer : Nat) (quote : Option Char) :
    Scan.StaysOpen ⟨quote, false, outer + 1⟩
      (rest.take (braceExtent outer quote rest)) := by
  have hopen : outer + 1 ≠ 0 := Nat.succ_ne_zero outer
  fun_induction braceExtent outer quote rest with
  | case1 outer quote c rest ih =>
      rw [List.take_succ_cons, List.take_succ_cons]
      exact ⟨hopen, hopen, by simpa [Scan.next] using ih hopen⟩
  | case2 outer quote c rest hne ih =>
      rw [List.take_succ_cons]
      refine ⟨hopen, ?_⟩
      by_cases hc : c = '~'
      · -- a tilde at the end of the text
        subst hc
        cases rest with
        | nil => simp [Scan.StaysOpen]
        | cons d rest => exact absurd rfl (hne d rest rfl)
      · simpa [Scan.next, hc] using ih hopen
  | case3 outer c rest hc ih =>
      rw [List.take_succ_cons]
      exact ⟨hopen, by simpa [Scan.next, hc] using ih hopen⟩
  | case4 outer rest hc ih =>
      rw [List.take_succ_cons]
      exact ⟨hopen, ih (Nat.succ_ne_zero _)⟩
  | case5 rest hc hbrace => exact ⟨hopen, trivial⟩
  | case6 rest outer hc hbrace ih =>
      rw [List.take_succ_cons]
      exact ⟨hopen, ih (Nat.succ_ne_zero _)⟩
  | case7 outer c rest hc hbrace hclose ih =>
      rw [List.take_succ_cons]
      exact ⟨hopen, by simpa [Scan.next, hc, hbrace, hclose] using ih hopen⟩
  | case8 => exact trivial

/-- An include directive begins with a brace and ends where the scan ends. -/
theorem inContext_of_inclusion {c : Char}
    (h : ((first c rest).inContext previous c rest).kind = .inclusion) :
    c = '\x7b'
      ∧ ((first c rest).inContext previous c rest).extent
        = braceExtent 0 none rest := by
  have hinclusion : TokenKind.inclusion
      ∈ [TokenKind.blank, .comment, .reference, .inclusion] := by decide
  have hfirst : (first c rest).kind = .inclusion := Decidable.by_contra
    fun hne => inContext_kind_ne hinclusion hne h
  rcases first_cases c rest with ⟨-, hf⟩ | ⟨-, hf⟩ | ⟨rfl, hf⟩ | hf
  · rw [hf] at hfirst
    cases hfirst
  · rw [hf] at hfirst
    unfold ofSlash at hfirst
    split at hfirst <;> cases hfirst
  · refine ⟨rfl, ?_⟩
    have hsymbol : first '\x7b' rest ≠ ⟨.symbol, 0⟩ := by
      intro he
      rw [he] at hfirst
      cases hfirst
    rw [inContext, if_neg hsymbol, hf]
    rfl
  · exact absurd hfirst (hf _ hinclusion)

/-- A piece that is an include directive is a brace and text that is read with
a brace open. -/
theorem staysOpen_of_mem_lexFrom {p : Piece}
    (h : p ∈ lexFrom previous cs) (hkind : p.kind = .inclusion) :
    ∃ body, p.chars = '\x7b' :: body ∧ Scan.StaysOpen {} body := by
  fun_induction lexFrom previous cs with
  | case1 => cases h
  | case2 previous c rest lexeme ih =>
      rcases List.mem_cons.1 h with rfl | h
      · obtain ⟨rfl, hextent⟩ := inContext_of_inclusion hkind
        refine ⟨rest.take lexeme.extent, rfl, ?_⟩
        rw [hextent]
        exact staysOpen_braceExtent 0 none
      · exact ih h

/-- The token is an include directive whose closing brace is there. -/
def Token.IsClosedInclusion (t : Token) : Prop :=
  t.kind = .inclusion ∧ (Scan.after {} (t.text.toList.drop 1)).depth = 0

instance (t : Token) : Decidable t.IsClosedInclusion :=
  inferInstanceAs (Decidable (_ ∧ _))

/-- A scan that comes to its end with a character has met the brace that
closes the outermost one. -/
theorem Scan.closes {c : Char} (hopen : s.depth ≠ 0)
    (hclosed : (s.next c).depth = 0) :
    c = '\x7d' ∧ s.quote = none ∧ s.depth = 1 := by
  obtain ⟨quote, escaped, n⟩ := s
  cases quote with
  | some q =>
      refine absurd ?_ hopen
      cases escaped with
      | true => exact hclosed
      | false =>
          unfold next at hclosed
          dsimp only at hclosed
          split at hclosed <;> exact hclosed
  | none =>
      unfold next at hclosed
      dsimp only at hclosed hopen ⊢
      split at hclosed
      · exact absurd hclosed hopen
      split at hclosed
      · exact absurd hclosed (Nat.succ_ne_zero n)
      split at hclosed
      · rename_i hc
        dsimp only at hclosed
        exact ⟨hc, rfl, by omega⟩
      · exact absurd hclosed hopen

/-- A closed include directive of a text stands between two braces, and inside
of them the scan has not come to its end. -/
theorem Token.IsClosedInclusion.inner {text : String} {t : Token}
    (ht : t ∈ tokenize text) (h : t.IsClosedInclusion) :
    ∃ inner, t.text.toList = '\x7b' :: (inner ++ ['\x7d'])
      ∧ Scan.StaysOpen {} (inner ++ ['\x7d']) := by
  obtain ⟨hkind, hclosed⟩ := h
  have hmem : t.piece ∈ lex text.toList := by
    rw [tokenize_eq] at ht
    rcases List.mem_append.1 ht with ht | ht
    · exact (mem_tokensFrom ht).1
    · rw [List.mem_singleton.1 ht] at hkind
      cases hkind
  obtain ⟨body, hchars, hopen⟩ := staysOpen_of_mem_lexFrom hmem hkind
  have htext : t.text.toList = '\x7b' :: body := hchars
  rw [htext, List.drop_one, List.tail_cons] at hclosed
  rcases List.eq_nil_or_concat' body with rfl | ⟨inner, c, rfl⟩
  · cases hclosed
  · obtain ⟨-, hlast⟩ := Scan.staysOpen_append.1 hopen
    rw [Scan.after_append] at hclosed
    obtain ⟨rfl, -⟩ := Scan.closes hlast.1 hclosed
    exact ⟨inner, htext, hopen⟩

end Tokens

-- ======================================================== the two readings

section Agreement

variable {s : Scan} {o : Opening} {c : Char} {cs current : List Char}

/-- White space opens nothing. -/
theorem next_blank (h : isBlank c = true) : Opening.next {} c = {} := by
  have hmarks : ∀ d ∈ ['"', '\x27', '\x7b', '\x7d'], isBlank d = false := by
    simp only [List.forall_mem_cons, List.not_mem_nil, false_implies,
      implies_true, and_true]
    decide
  have hne : ∀ d ∈ ['"', '\x27', '\x7b', '\x7d'], c ≠ d := by
    rintro d hd rfl
    rw [hmarks c hd] at h
    cases h
  simp [Opening.next_none, hne]

/-- The word that was begun, as a stretch. -/
theorem text_begun (acc : List (Char × Bool)) (rest : List Char) :
    (if (acc.map (·.1)).isEmpty then []
        else [(⟨(acc.map (·.1)).reverse, rest⟩ : Preprocess.Piece)]).map (·.text)
      = if acc.reverse.isEmpty then [] else [acc.reverse.map (·.1)] := by
  rw [List.isEmpty_map, List.isEmpty_reverse, List.map_reverse]
  cases acc <;> rfl

/-- The scan and the cutter of words have the same open: the cutter starts
inside the outermost braces. -/
structure Agrees (s : Scan) (o : Opening) : Prop where
  quote : s.quote = o.quote
  depth : s.depth = o.depth + 1
  mark : ∀ q ∈ s.quote, q = '"' ∨ q = '\x27'
  tilde : s.escaped = true → s.quote ≠ none

theorem agrees_start : Agrees {} {} :=
  ⟨rfl, rfl, nofun, nofun⟩

/-- They go on to agree, unless an escape makes the lexer pass over the end of
a quote or the outermost braces are closed. -/
theorem Agrees.next (h : Agrees s o)
    (hescape : (s.escaped && s.quote == some c) = false)
    (hopen : (s.next c).depth ≠ 0) : Agrees (s.next c) (o.next c) := by
  obtain ⟨quote, escaped, n⟩ := s
  obtain ⟨quote', depth⟩ := o
  obtain ⟨hquote, hdepth, hmark, htilde⟩ := h
  dsimp only at hquote hdepth hmark htilde hescape
  subst hquote hdepth
  cases quote with
  | some q =>
      have hne : q ≠ '~' := by
        rcases hmark q rfl with rfl | rfl <;> decide
      cases escaped with
      | true =>
          have hc : c ≠ q := by
            rintro rfl
            simp at hescape
          rw [Opening.next_quote, if_neg hc]
          exact ⟨rfl, rfl, hmark, nofun⟩
      | false =>
          rw [Opening.next_quote]
          by_cases hc : c = '~'
          · subst hc
            rw [if_neg (Ne.symm hne)]
            exact ⟨rfl, rfl, hmark, nofun⟩
          · simp only [Scan.next, if_neg hc]
            refine ⟨rfl, rfl, ?_, nofun⟩
            split
            · nofun
            · exact hmark
  | none =>
      rw [Opening.next_none]
      have hescaped : escaped = false := by
        cases escaped with
        | true => exact absurd rfl (htilde rfl)
        | false => rfl
      unfold Scan.next at hopen ⊢
      dsimp only at hopen ⊢
      by_cases hmark : c = '"' ∨ c = '\x27'
      · rw [if_pos hmark, if_pos hmark]
        exact ⟨rfl, rfl, fun q hq => Option.some.inj hq ▸ hmark, nofun⟩
      rw [if_neg hmark, if_neg hmark] at *
      by_cases hbrace : c = '\x7b'
      · rw [if_pos hbrace, if_pos hbrace]
        exact ⟨rfl, rfl, nofun, nofun⟩
      rw [if_neg hbrace, if_neg hbrace] at *
      by_cases hclose : c = '\x7d'
      · rw [if_pos hclose] at hopen
        rw [if_pos hclose, if_pos hclose]
        dsimp only at hopen
        exact ⟨rfl, by dsimp only; omega, nofun, nofun⟩
      · rw [if_neg hclose, if_neg hclose]
        exact ⟨rfl, rfl, nofun, nofun⟩

theorem Agrees.isOuterBlank_iff (h : Agrees s o) :
    s.isOuterBlank c = true ↔ o = {} ∧ isBlank c = true := by
  obtain ⟨quote, depth⟩ := o
  obtain ⟨hquote, hdepth, -, -⟩ := h
  dsimp only at hquote hdepth
  simp only [Scan.isOuterBlank, hquote, hdepth, Bool.and_eq_true,
    Option.isNone_iff_eq_none, beq_iff_eq, Opening.mk.injEq]
  constructor
  · rintro ⟨⟨hblank, hnone⟩, hone⟩
    exact ⟨⟨hnone, by omega⟩, hblank⟩
  · rintro ⟨⟨hnone, hzero⟩, hblank⟩
    exact ⟨⟨hblank, hnone⟩, by omega⟩

/-- The words are the pieces that the white space outside leaves. -/
theorem Agrees.map_text_piecesFrom (h : Agrees s o)
    (hescape : s.escapesQuote cs = false) (hopen : s.StaysOpen (cs ++ ['\x7d']))
    (acc : List (Char × Bool)) :
    (piecesFrom (acc.map (·.1)) o.quote o.depth cs).map (·.text)
      = Scan.textsOf ((s.marked cs).splitOnPPrepend (·.2) acc) := by
  induction cs generalizing s o acc with
  | nil =>
      rw [Scan.marked, List.splitOnPPrepend_nil, Scan.textsOf_cons, piecesFrom,
        text_begun]
      exact (List.append_nil _).symm
  | cons c cs ih =>
      rw [Scan.escapesQuote, Bool.or_eq_false_iff] at hescape
      obtain ⟨hhere, hescape⟩ := hescape
      obtain ⟨-, hopen⟩ := hopen
      have hnext : Agrees (s.next c) (o.next c) := by
        refine h.next hhere ?_
        cases cs with
        | nil => exact hopen.1
        | cons d cs => exact hopen.1
      have hrest := ih hnext hescape hopen
      rw [Scan.marked]
      by_cases hc : o = {} ∧ isBlank c = true
      · have hmark := h.isOuterBlank_iff.2 hc
        obtain ⟨rfl, hblank⟩ := hc
        rw [next_blank hblank] at hrest
        rw [Preprocess.piecesFrom_blank hblank,
          List.splitOnPPrepend_cons_pos (by exact hmark), Scan.textsOf_cons,
          List.map_append, text_begun]
        exact congrArg _ (hrest [])
      · have hmark : s.isOuterBlank c = false :=
          Bool.eq_false_iff.2 (mt h.isOuterBlank_iff.1 hc)
        rw [Preprocess.piecesFrom_cons hc,
          List.splitOnPPrepend_cons_neg (by exact hmark)]
        exact hrest ((c, s.isOuterBlank c) :: acc)

end Agreement

-- =================================================================== runs

section Runs

variable {α : Type} {p : α → Bool} {run : List α}

/-- What was begun goes to the front of the first part. -/
theorem exists_part_of_begun (rest acc : List α) :
    ∃ part ∈ rest.splitOnPPrepend p acc, acc.reverse <+: part := by
  induction rest generalizing acc with
  | nil => exact ⟨_, List.mem_singleton_self _, List.prefix_rfl⟩
  | cons a rest ih =>
      rw [List.splitOnPPrepend_cons_eq_if]
      split
      · exact ⟨_, List.mem_cons_self, List.prefix_rfl⟩
      · obtain ⟨part, hpart, hprefix⟩ := ih (a :: acc)
        rw [List.reverse_cons] at hprefix
        exact ⟨part, hpart, (List.prefix_append _ _).trans hprefix⟩

/-- A run that holds no separator lies in one part. -/
theorem exists_part_of_run (hrun : ∀ a ∈ run, p a = false)
    (front rest acc : List α) :
    ∃ part ∈ (front ++ run ++ rest).splitOnPPrepend p acc, run <:+: part := by
  induction front generalizing acc with
  | nil =>
      have hread : ∀ acc, (run ++ rest).splitOnPPrepend p acc
          = rest.splitOnPPrepend p (run.reverse ++ acc) := by
        clear acc
        induction run with
        | nil => exact fun acc => rfl
        | cons a run ih =>
            intro acc
            obtain ⟨ha, hrun⟩ := List.forall_mem_cons.1 hrun
            rw [List.cons_append, List.splitOnPPrepend_cons_neg ha, ih hrun,
              List.reverse_cons, List.append_assoc, List.singleton_append]
      obtain ⟨part, hpart, hprefix⟩ :=
        exists_part_of_begun (p := p) rest (run.reverse ++ acc)
      refine ⟨part, (hread acc).symm ▸ hpart, ?_⟩
      rw [List.reverse_append, List.reverse_reverse] at hprefix
      exact (List.suffix_append _ _).isInfix.trans hprefix.isInfix
  | cons a front ih =>
      rw [List.cons_append, List.cons_append, List.splitOnPPrepend_cons_eq_if]
      split
      · obtain ⟨part, hpart, hinfix⟩ := ih []
        exact ⟨part, List.mem_cons_of_mem _ hpart, hinfix⟩
      · exact ih (a :: acc)

end Runs

/-- What the scan reads between quotes lies in one part. -/
theorem Scan.Quotes.exists_part {front run : List Char} {s : Scan}
    (h : (s.after front).Quotes run) (rest : List Char) :
    ∃ part ∈ s.parts (front ++ run ++ rest), run <:+: part := by
  obtain ⟨stretch, hstretch, hinfix⟩ := exists_part_of_run (p := (·.2)) h.marked
    (s.marked front) (((s.after front).after run).marked rest) []
  have htext : run <:+: stretch.map (·.1) := by
    have := hinfix.map (·.1)
    rwa [map_fst_marked] at this
  refine ⟨stretch.map (·.1), ?_, htext⟩
  have hmarked : s.marked (front ++ run ++ rest)
      = s.marked front ++ (s.after front).marked run
        ++ ((s.after front).after run).marked rest := by
    rw [marked_append, marked_append, after_append]
  rw [parts, hmarked, textsOf]
  refine List.mem_filter.2 ⟨List.mem_map_of_mem hstretch, ?_⟩
  cases run with
  | nil => exact h.elim
  | cons c run =>
      cases hpart : stretch.map (·.1) with
      | nil =>
          rw [hpart] at htext
          exact absurd (List.infix_nil.1 htext) (List.cons_ne_nil c run)
      | cons => rfl

-- ================================================================ directives

/-- The words of an include directive part where the scan of the lexer meets
white space outside of quotes and at the outermost depth, and nowhere else, as
long as no tilde escapes the quote that is open. So what the lexer reads between
quotes stays in one word. -/
theorem words_of_inclusion {text : String} {t : Token} (ht : t ∈ tokenize text)
    (h : t.IsClosedInclusion)
    (hescape : Scan.escapesQuote {} (betweenBraces t.text.toList) = false) :
    ∃ inner, t.text.toList = '\x7b' :: (inner ++ ['\x7d'])
      ∧ betweenBraces t.text.toList = inner
      ∧ (words inner).map (·.text) = Scan.parts {} inner
      ∧ ∀ front run rest, inner = front ++ run ++ rest →
          (Scan.after {} front).Quotes run →
          ∃ word ∈ words inner, run <:+: word.text := by
  obtain ⟨inner, htext, hopen⟩ := h.inner ht
  have hinner : betweenBraces t.text.toList = inner := by
    rw [htext, Preprocess.Written.betweenBraces_braced]
  rw [hinner] at hescape
  have hwords : (words inner).map (·.text) = Scan.parts {} inner :=
    agrees_start.map_text_piecesFrom hescape hopen []
  refine ⟨inner, htext, hinner, hwords, ?_⟩
  rintro front run rest rfl hquotes
  obtain ⟨part, hpart, hinfix⟩ := hquotes.exists_part rest
  rw [← hwords] at hpart
  obtain ⟨word, hword, rfl⟩ := List.mem_map.1 hpart
  exact ⟨word, hword, hinfix⟩

/-- Blanks and a brace between quotes, and the other quote behind a tilde, part
nothing; nor does a blank in the inner braces. -/
theorem words_of_inclusion_nested :
    let text := "DO. \x7ba.i &b=\"c \x7b ~\x27 d\"  \x7b&e f\x7d 7\x7d"
    let inner := "a.i &b=\"c \x7b ~\x27 d\"  \x7b&e f\x7d 7".toList
    let quoted := "\"c \x7b ~\x27 d\"".toList
    ∃ t ∈ tokenize text, t.IsClosedInclusion
      ∧ betweenBraces t.text.toList = inner
      ∧ Scan.escapesQuote {} inner = false
      ∧ (words inner).map (·.text) = Scan.parts {} inner
      ∧ Scan.parts {} inner
          = ["a.i", "&b=\"c \x7b ~\x27 d\"", "\x7b&e f\x7d", "7"].map String.toList
      ∧ ∃ word ∈ words inner, quoted <:+: word.text := by
  intro text inner quoted
  let t : Token :=
    { kind := .inclusion
      text := "\x7ba.i &b=\"c \x7b ~\x27 d\"  \x7b&e f\x7d 7\x7d"
      start := ⟨0, 4⟩, range := ⟨4, 33⟩, owner := 0 }
  have ht : t ∈ tokenize text := by decide +kernel
  have hclosed : t.IsClosedInclusion := by decide +kernel
  have hinner : betweenBraces t.text.toList = inner := by decide +kernel
  have hescape : Scan.escapesQuote {} inner = false := by decide +kernel
  obtain ⟨_, -, rfl, hwords, hrun⟩ :=
    words_of_inclusion ht hclosed (by rw [hinner]; exact hescape)
  rw [hinner] at hwords hrun
  refine ⟨t, ht, hclosed, hinner, hescape, hwords, by decide +kernel, ?_⟩
  exact hrun "a.i &b=".toList quoted "  \x7b&e f\x7d 7".toList (by decide +kernel)
    ⟨by decide +kernel, by decide +kernel, by simp +decide [Scan.InQuotes]⟩

/-- A tilde before the quote that is open: the lexer reads on between quotes,
the word ends. -/
theorem word_cut_at_escaped_quote :
    let t : Token :=
      { kind := .inclusion, text := "\x7ba \"x~\" y\"\x7d", start := .origin
        range := ⟨0, 11⟩, owner := 0 }
    t ∈ tokenize t.text ∧ t.IsClosedInclusion
      ∧ Scan.parts {} (betweenBraces t.text.toList)
          = ["a", "\"x~\" y\""].map String.toList
      ∧ (words (betweenBraces t.text.toList)).map (·.text)
          = ["a", "\"x~\"", "y\""].map String.toList
      ∧ (Preprocess.IncludeCall.parse? t.text).map (·.positional)
          = some ["x~", "y\""] := by
  decide +kernel

end AblOutline
