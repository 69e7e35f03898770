/-
Texts with branches, stretch by stretch, and what is left of them when the
branches that are not taken are blanked out.

    FOR EACH customer             live     FOR EACH customer
    &IF FALSE &THEN               branch
      WHERE name = x              dead
    &ELSE                         branch
      NO-LOCK:                    live       NO-LOCK:
    &ENDIF                        branch
      DISPLAY name.               live       DISPLAY name.

Each stretch takes whole lines. A stretch is live where all branches around it
are taken. A statement may begin before a branch and end in it or after it, so
what is kept of a statement may be spread over several stretches.
-/
import AblOutline.Proofs.Chains
import AblOutline.Proofs.Lexing.Lines
import AblOutline.Proofs.Program.Grammar

namespace AblOutline

-- ================================================================ pieces

namespace Piece

/-- The piece is the symbol `s`. -/
def isSymbol (p : Piece) (s : String) : Bool := p.kind == .symbol && p.text == s

/-- The piece is the word `w`, whatever its case. -/
def isWord (p : Piece) (w : String) : Bool := p.kind == .word && Text.same p.text w

/-- What follows is a method or a class, and no function. -/
def isQualifier (p : Piece) : Bool := p.isSymbol ":" || p.isWord "NEW"

end Piece

/-- Tokens that follow one another only because there are no directives
between them: a word and the parenthesis that makes it a call, what tells a
call from a method and the word that is called, or `DYNAMIC-FUNCTION(` and the
name in it. What stands before is given with the last piece first. -/
def cutsCall (before after : List Piece) : Bool :=
  before[0]?.any (·.kind == .word) && after[0]?.any (·.isSymbol "(")
    || before[0]?.any (·.isQualifier) && after[0]?.any (·.kind == .word)
      && after[1]?.any (·.isSymbol "(")
    || before[1]?.any (·.isWord "DYNAMIC-FUNCTION")
      && before[0]?.any (·.isSymbol "(") && after[0]?.any (·.kind == .string)

/-- The last of the pieces, which comes first, ends a statement, or there is
none. -/
def atRest (before : List Piece) : Bool := before[0]?.all (·.kind == .eos)

-- ============================================================= stretches

/-- Whole lines of a text with branches. -/
inductive Stretch where
  /-- Lines that are looked at. -/
  | live (ps : List Piece)
  /-- Lines on a branch that is not taken, and empty lines for them. -/
  | dead (ps blank : List Piece)
  /-- A directive of branches, and empty lines for it. -/
  | branch (d : DirectiveLine) (e : BranchEvent) (blank : List Piece)

namespace Stretch

def pieces : Stretch → List Piece
  | live ps => ps
  | dead ps _ => ps
  | branch d _ _ => d.pieces

/-- The pieces where all but live lines are blanked out. -/
def masked : Stretch → List Piece
  | live ps => ps
  | dead _ blank => blank
  | branch _ _ blank => blank

end Stretch

/-- The text of some chunks. -/
def textOf (chunks : List (List Piece)) : String :=
  String.ofList (charsOf chunks.flatten)

/-- Lines without directives, with nothing to expand. -/
structure IsLines (ps : List Piece) : Prop where
  plain : ∀ p ∈ ps, p.kind ≠ .directive ∧ p.IsPlain
  lexes : lex (charsOf ps) = ps

instance (ps : List Piece) : Decidable (IsLines ps) :=
  decidable_of_iff
    ((∀ p ∈ ps, p.kind ≠ .directive ∧ p.IsPlain) ∧ lex (charsOf ps) = ps)
    ⟨fun h => ⟨h.1, h.2⟩, fun h => ⟨h.plain, h.lexes⟩⟩

/-- Empty lines in the place of `ps`, as many as it has. -/
structure IsBlank (ps blank : List Piece) : Prop where
  breaks : ∀ p ∈ blank, p.kind = .eol
  lines : (Position.origin.past blank).line = (Position.origin.past ps).line
  lexes : lex (charsOf blank) = blank

instance (ps blank : List Piece) : Decidable (IsBlank ps blank) :=
  decidable_of_iff
    ((∀ p ∈ blank, p.kind = .eol)
      ∧ (Position.origin.past blank).line = (Position.origin.past ps).line
      ∧ lex (charsOf blank) = blank)
    ⟨fun h => ⟨h.1, h.2.1, h.2.2⟩, fun h => ⟨h.breaks, h.lines, h.lexes⟩⟩

/-- The directive of a line is that of the event; a condition is `TRUE` or
`FALSE`. -/
def DirectiveLine.Marks (d : DirectiveLine) : BranchEvent → Prop
  | .ifThen holds => d.HasLiteral "&IF" holds
  | .elseIf holds => d.HasLiteral "&ELSEIF" holds
  | .otherwise => d.IsLone "&ELSE"
  | .endIf => d.IsLone "&ENDIF"

/-- The stretches are what they stand for among the chains that are open, and
close all of them. -/
def Fits (cs : Chains) : List Stretch → Prop
  | [] => cs = []
  | .live ps :: m => cs.allActive = true ∧ IsLines ps ∧ Fits cs m
  | .dead ps blank :: m =>
    cs.allActive = false ∧ IsLines ps ∧ IsBlank ps blank ∧ Fits cs m
  | .branch d e blank :: m =>
    d.Marks e ∧ IsBlank d.pieces blank
      ∧ ∃ cs', cs.read? e = some cs' ∧ Fits cs' m

/-- What is kept and carries meaning. -/
def kept : List Stretch → List Piece
  | [] => []
  | .live ps :: m => significant ps ++ kept m
  | _ :: m => kept m

/-- No statement that is kept is stopped on a branch that is not taken, and
none has a call that is cut by a directive; what is kept before is given with
the last piece first. -/
def Apart (before : List Piece) : List Stretch → Prop
  | [] => True
  | .live ps :: m => Apart ((significant ps).reverse ++ before) m
  | .dead ps _ :: m =>
    ((∃ p ∈ ps, p.kind = .eos) → atRest before = true) ∧ Apart before m
  | .branch _ _ _ :: m => cutsCall before (kept m) = false ∧ Apart before m

/-- Whether a text is kept apart is decided stretch by stretch. -/
def Apart.decide : (before : List Piece) → (m : List Stretch) →
    Decidable (Apart before m)
  | _, [] => inferInstanceAs (Decidable True)
  | before, .live ps :: m => Apart.decide ((significant ps).reverse ++ before) m
  | before, .dead _ _ :: m =>
    have := Apart.decide before m
    inferInstanceAs (Decidable (_ ∧ _))
  | before, .branch _ _ _ :: m =>
    have := Apart.decide before m
    inferInstanceAs (Decidable (_ ∧ _))

instance (before : List Piece) (m : List Stretch) : Decidable (Apart before m) :=
  Apart.decide before m

-- ================================================================ fitting

section Pieces

variable {ps qs : List Piece}

theorem significant_append :
    significant (ps ++ qs) = significant ps ++ significant qs :=
  List.filter_append ..

theorem IsGap.significant_eq_nil (h : IsGap ps) : significant ps = [] := by
  unfold significant
  rw [List.filter_eq_nil_iff]
  intro p hp
  rw [h p hp]
  exact Bool.false_ne_true

theorem IsBlank.isGap {blank : List Piece} (h : IsBlank ps blank) :
    IsGap blank := by
  intro p hp
  rw [h.breaks p hp]
  rfl

end Pieces

theorem DirectiveLine.Marks.wellFormed {d : DirectiveLine} {e : BranchEvent}
    (h : d.Marks e) : ∃ word, d.WellFormed word := by
  cases e with
  | ifThen holds => exact ⟨_, h.toWellFormed⟩
  | elseIf holds => exact ⟨_, h.toWellFormed⟩
  | otherwise => exact ⟨_, h.toWellFormed⟩
  | endIf => exact ⟨_, h.toWellFormed⟩

section Fits

variable {cs : Chains} {m : List Stretch}

/-- What holds of all lines holds of all chunks of both texts. -/
theorem Fits.forall_chunks {P : List Piece → Prop}
    (hlines : ∀ ps, IsLines ps → P ps)
    (hblank : ∀ ps blank, IsBlank ps blank → P blank)
    (hd : ∀ (word : String) (d : DirectiveLine), d.WellFormed word → P d.pieces)
    (h : Fits cs m) :
    (∀ c ∈ m.map Stretch.pieces, P c) ∧ ∀ c ∈ m.map Stretch.masked, P c := by
  induction m generalizing cs with
  | nil => exact ⟨nofun, nofun⟩
  | cons x m ih =>
      have hboth : (P x.pieces ∧ P x.masked) ∧ ∃ cs', Fits cs' m := by
        cases x with
        | live ps =>
            obtain ⟨-, hps, hm⟩ := h
            exact ⟨⟨hlines ps hps, hlines ps hps⟩, cs, hm⟩
        | dead ps blank =>
            obtain ⟨-, hps, hb, hm⟩ := h
            exact ⟨⟨hlines ps hps, hblank ps blank hb⟩, cs, hm⟩
        | branch d e blank =>
            obtain ⟨hmarks, hb, cs', -, hm⟩ := h
            obtain ⟨word, hword⟩ := hmarks.wellFormed
            exact ⟨⟨hd word d hword, hblank _ blank hb⟩, cs', hm⟩
      obtain ⟨⟨hp, hq⟩, cs', hm⟩ := hboth
      obtain ⟨hps, hqs⟩ := ih hm
      exact ⟨List.forall_mem_cons.2 ⟨hp, hps⟩, List.forall_mem_cons.2 ⟨hq, hqs⟩⟩

/-- The chunks of both texts are read as they stand. -/
theorem Fits.lexes (h : Fits cs m) :
    (∀ c ∈ m.map Stretch.pieces, lex (charsOf c) = c)
      ∧ ∀ c ∈ m.map Stretch.masked, lex (charsOf c) = c :=
  h.forall_chunks (fun _ h => h.lexes) (fun _ _ h => h.lexes)
    fun _ _ h => h.lexes

/-- Nothing of either text is to be expanded. -/
theorem Fits.plain (h : Fits cs m) :
    (∀ c ∈ m.map Stretch.pieces, ∀ p ∈ c, p.IsPlain)
      ∧ ∀ c ∈ m.map Stretch.masked, ∀ p ∈ c, p.IsPlain :=
  h.forall_chunks (fun _ h p hp => (h.plain p hp).2)
    (fun _ _ h => h.isGap.plain) fun _ _ h => h.isPlain

end Fits

-- ================================================================== seams

/-- The pieces `x` that lie ahead, and `y` of them that are kept: the same up
to the first directive, which cuts no call. -/
inductive Parted : List Piece → List Piece → List Piece → Prop where
  | done {before : List Piece} : Parted before [] []
  | same {before x y : List Piece} (p : Piece) (h : Parted (p :: before) x y) :
      Parted before (p :: x) (p :: y)
  | cut {before x y : List Piece} {d : Piece} (hd : d.kind = .directive)
      (hc : cutsCall before y = false) : Parted before (d :: x) y

namespace Parted

variable {before x y l : List Piece}

theorem append (h : Parted (l.reverse ++ before) x y) :
    Parted before (l ++ x) (l ++ y) := by
  induction l generalizing before with
  | nil => exact h
  | cons p l ih =>
      refine .same p (ih ?_)
      rw [List.reverse_cons, List.append_assoc] at h
      exact h

/-- The end mark cuts nothing. -/
theorem cutsCall_concat {e : Piece} (he : e.kind = .eof) :
    cutsCall before (y ++ [e]) = cutsCall before y := by
  have hsymbol : ∀ s, e.isSymbol s = false := by
    intro s
    unfold Piece.isSymbol
    rw [he]
    rfl
  unfold cutsCall
  match y with
  | [] => simp [he, hsymbol]
  | [p] => simp [hsymbol]
  | p :: q :: rest => rfl

/-- What lies ahead in a live stretch is kept up to the next directive. -/
theorem of_apart {cs : Chains} {m : List Stretch} {e : Piece}
    (he : e.kind = .eof) (hf : Fits cs m) (ha : cs.allActive = true)
    (h : Apart before m) :
    Parted before (significant (m.map Stretch.pieces).flatten ++ [e])
      (kept m ++ [e]) := by
  induction m generalizing before with
  | nil => exact .same e .done
  | cons stretch m ih =>
      rw [List.map_cons, List.flatten_cons, significant_append,
        List.append_assoc]
      cases stretch with
      | live ps =>
          obtain ⟨-, -, hm⟩ := hf
          unfold kept
          rw [List.append_assoc]
          exact Parted.append (ih hm h)
      | dead ps blank =>
          obtain ⟨hdead, -⟩ := hf
          rw [ha] at hdead
          cases hdead
      | branch d event blank =>
          obtain ⟨hd, -⟩ := hf
          obtain ⟨word, hword⟩ := hd.wellFormed
          have hpieces : significant d.pieces
              = ⟨.directive, d.word⟩ :: significant (d.operands ++ d.after) := by
            unfold DirectiveLine.pieces
            rw [significant_append, hword.before.significant_eq_nil]
            rfl
          show Parted before (significant d.pieces ++ _) _
          rw [hpieces, List.cons_append]
          refine .cut rfl ?_
          rw [cutsCall_concat he]
          exact h.1

end Parted

-- ================================================================= places

section Places

variable {p : Position} {ps : List Piece}

/-- As many lines are passed from wherever the pieces start. -/
theorem past_line (p : Position) (ps : List Piece) (q : Position) :
    (p.past ps).line + q.line = (q.past ps).line + p.line := by
  induction ps generalizing p q with
  | nil => exact Nat.add_comm ..
  | cons x ps ih =>
      have hrest := ih (p.after x.chars) (q.after x.chars)
      rw [after_line_eq, after_line_eq] at hrest
      show ((p.after x.chars).past ps).line + _
        = ((q.after x.chars).past ps).line + _
      omega

theorem after_column {cs : List Char} (h : Lexeme.EndsBreak cs) :
    (p.after cs).column = 0 := by
  fun_induction Position.after p cs with
  | case1 p => exact absurd rfl h.ne_nil
  | case2 p rest ih =>
      by_cases hr : rest = []
      · rw [hr]
        rfl
      · exact ih (h.drop (n := 2) (by simp [List.length_pos_iff.2 hr]))
  | case3 p c rest hne hc ih =>
      by_cases hr : rest = []
      · rw [hr]
        rfl
      · exact ih (h.drop (n := 1) (by simp [List.length_pos_iff.2 hr]))
  | case4 p c rest hne hc ih => exact ih (h.tail hc)

/-- After a line break the next line begins. -/
theorem past_column (hl : lex (charsOf ps) = ps) (he : EndsLine ps) :
    (p.past ps).column = 0 := by
  obtain ⟨front, chars, hps⟩ := he
  have hmem : ⟨.eol, chars⟩ ∈ lexFrom none (charsOf ps) := by
    have hlast : ⟨.eol, chars⟩ ∈ ps := by simp [hps]
    rw [← hl] at hlast
    exact hlast
  rw [hps, past_append]
  exact after_column (endsBreak_of_mem hmem)

end Places

end AblOutline
