/-
What a word sees of the tokens around it. To tell a call from other words, a
parse looks for the next token that carries meaning, and for the one before.
Where branches are in between, it sees their directives and what is on them;
where they are blanked out, it does not. Both give the same answer as long as
no directive cuts a call.
-/
import AblOutline.Proofs.Alike.Words
import AblOutline.Proofs.Masked.Stretches

namespace AblOutline

/-- The pieces of the tokens that carry meaning. -/
def meanings (ts : List Token) : List Piece := significant (ts.map (·.piece))

section Meanings

variable {t beyond : Token} {ts : List Token}

theorem meanings_trivia (h : t.kind.isTrivia = true) :
    meanings (t :: ts) = meanings ts := by
  have ht : t.piece.kind.isTrivia = true := h
  unfold meanings significant
  rw [List.map_cons, List.filter_cons, ht]
  rfl

theorem meanings_cons (h : t.kind.isTrivia = false) :
    meanings (t :: ts) = t.piece :: meanings ts := by
  have ht : t.piece.kind.isTrivia = false := h
  unfold meanings significant
  rw [List.map_cons, List.filter_cons, ht]
  rfl

theorem meanings_tokensFrom (start : Position) (offset : Nat)
    (ps : List Piece) (more : List Token) :
    meanings (tokensFrom start offset ps ++ more)
      = significant ps ++ meanings more := by
  unfold meanings
  rw [List.map_append, map_piece_tokensFrom, significant_append]

theorem isTrivia_of_isEof (h : t.isEof = true) : t.kind.isTrivia = false := by
  rw [eq_of_beq h]
  rfl

/-- A search for a token that carries meaning. -/
theorem scan_eq (beyond : Token) (offset step : Int) (ts : List Token) :
    ∃ (k : Nat) (t : Token),
      Cursor.scan (!TokenKind.trivia.contains ·.kind) beyond offset step ts
          = (offset + step * k, t)
        ∧ (meanings ts = t.piece :: meanings (ts.drop (k + 1))
          ∨ meanings ts = [] ∧ t = beyond) := by
  induction ts generalizing offset with
  | nil => exact ⟨0, beyond, by simp [Cursor.scan], Or.inr ⟨rfl, rfl⟩⟩
  | cons t ts ih =>
      unfold Cursor.scan
      cases ht : t.kind.isTrivia with
      | false =>
          have hwanted : (t.isEof || !TokenKind.trivia.contains t.kind) = true := by
            show (t.isEof || !t.kind.isTrivia) = true
            rw [ht]
            exact Bool.or_true _
          refine ⟨0, t, ?_, Or.inl (meanings_cons ht)⟩
          rw [if_pos hwanted]
          simp
      | true =>
          have hwanted : (t.isEof || !TokenKind.trivia.contains t.kind) = false := by
            show (t.isEof || !t.kind.isTrivia) = false
            rw [ht, Bool.not_true, Bool.or_false]
            cases he : t.isEof with
            | false => rfl
            | true => rw [isTrivia_of_isEof he] at ht; cases ht
          obtain ⟨k, u, hu, hmeanings⟩ := ih (offset + step)
          refine ⟨k + 1, u, ?_, ?_⟩
          · rw [hwanted, if_neg Bool.false_ne_true, hu, Int.natCast_succ,
              Int.mul_add, Int.mul_one, Int.add_assoc, Int.add_comm step]
          · rw [meanings_trivia ht]
            exact hmeanings

/-- A question to the token that is found, told by its piece. -/
theorem scan_any {f : Token → Bool} {g : Piece → Bool}
    (hfg : ∀ t : Token, f t = g t.piece) (hb : f beyond = false)
    (offset step : Int) (ts : List Token) :
    f (Cursor.scan (!TokenKind.trivia.contains ·.kind) beyond offset step ts).2
      = (meanings ts)[0]?.any g := by
  obtain ⟨k, t, hscan, hm | ⟨hm, rfl⟩⟩ := scan_eq beyond offset step ts
  · rw [hscan, hm]
    exact hfg t
  · rw [hscan, hm]
    exact hb

end Meanings

-- ================================================================ pieces

section Pieces

variable {t : Token}

theorem isSymbol_piece (t : Token) (s : String) :
    t.isSymbol s = t.piece.isSymbol s := by
  unfold Token.isSymbol Piece.isSymbol
  rw [t.piece_text]
  rfl

theorem isWord_piece (t : Token) (w : String) :
    t.isWord w = t.piece.isWord w := by
  unfold Token.isWord Piece.isWord
  rw [t.piece_text]
  rfl

/-- The text of a string piece, without its quotes. -/
def Piece.unquoted (p : Piece) : String := (p.token .origin 0).unquoted

theorem unquoted_piece (t : Token) : t.unquoted = t.piece.unquoted := by
  unfold Piece.unquoted Token.unquoted
  show _ = if t.kind = .string then
    String.ofList (Token.stripQuotes t.piece.text.toList) else t.piece.text
  rw [t.piece_text]

theorem isSymbol_of_isEof (h : t.isEof = true) (s : String) :
    t.isSymbol s = false := by
  unfold Token.isSymbol
  rw [eq_of_beq h]
  rfl

end Pieces

/-- The name in `("name"`. -/
def nameIn? : List Piece → Option String
  | p :: q :: _ =>
    if p.isSymbol "(" ∧ q.kind = .string then some q.unquoted else none
  | _ => none

namespace Parse

variable {s s' : State}

/-- A word may be a call, told by the pieces around it. -/
theorem State.mayCall_eq (hb : s.source.cursor.beyond.isEof = true) :
    s.mayCall = ((meanings s.source.cursor.ahead)[0]?.any (·.isSymbol "(")
      && !(meanings s.source.cursor.passed.tail)[0]?.any (·.isQualifier)) := by
  have hsymbol := isSymbol_of_isEof hb
  have hword : ∀ w, s.source.cursor.beyond.isWord w = false := by
    intro w
    unfold Token.isWord
    rw [eq_of_beq hb]
    rfl
  have hnext : s.source.cursor.nextSignificant.isSymbol "("
      = (meanings s.source.cursor.ahead)[0]?.any (·.isSymbol "(") :=
    scan_any (f := (·.isSymbol "(")) (isSymbol_piece · "(") (hsymbol "(") 1 1
      s.source.cursor.ahead
  have hbefore : ((s.source.cursor.lastSignificant.isSymbol ":"
        || s.source.cursor.lastSignificant.isWord "NEW"))
      = (meanings s.source.cursor.passed.tail)[0]?.any (·.isQualifier) := by
    have hback : s.source.cursor.backward (0 - 1)
        = s.source.cursor.passed.tail := by
      unfold Cursor.backward
      rw [if_pos (by decide)]
      exact List.drop_one
    unfold Cursor.lastSignificant Cursor.findOther Cursor.find
    rw [if_pos rfl, hback]
    refine scan_any (f := fun t => t.isSymbol ":" || t.isWord "NEW")
      (fun t => ?_) ?_ _ _ _
    · rw [isSymbol_piece, isWord_piece]
      rfl
    · rw [hsymbol, hword]
      rfl
  unfold State.mayCall
  dsimp only
  rw [hnext, ← hbefore, Bool.not_or, Bool.and_assoc]

/-- The name that `DYNAMIC-FUNCTION` is given, told by the pieces after it. -/
theorem State.dynamicName?_eq (hb : s.source.cursor.beyond.isEof = true) :
    s.dynamicName? = nameIn? (meanings s.source.cursor.ahead) := by
  obtain ⟨k, paren, hparen, hfirst⟩ := scan_eq s.source.cursor.beyond 1 1
    s.source.cursor.ahead
  obtain ⟨l, name, hname, hsecond⟩ := scan_eq s.source.cursor.beyond
    ((1 : Int) + k + 1) 1 (s.source.cursor.ahead.drop (k + 1))
  have hfind : s.dynamicName?
      = if paren.isSymbol "(" ∧ name.kind = .string
        then some name.unquoted else none := by
    have honward : s.source.cursor.onward ((1 : Int) + k + 1)
        = s.source.cursor.ahead.drop (k + 1) := by
      unfold Cursor.onward
      rw [if_pos (by omega)]
      congr 1
      omega
    have hparen' : s.source.cursor.findOther 0 TokenKind.trivia false
        = ((1 : Int) + k, paren) := by
      rw [Int.one_mul] at hparen
      exact hparen
    have hname' : (s.source.cursor.findOther ((1 : Int) + k)
        TokenKind.trivia false).2 = name := by
      unfold Cursor.findOther Cursor.find
      rw [if_neg Bool.false_ne_true, honward, hname]
    unfold State.dynamicName?
    rw [hparen']
    dsimp only
    rw [hname']
  have hbeyond := isSymbol_of_isEof hb "("
  rw [hfind]
  rcases hfirst with hm | ⟨hm, rfl⟩
  · rw [hm]
    rcases hsecond with hm' | ⟨hm', rfl⟩
    · rw [hm', isSymbol_piece, unquoted_piece]
      rfl
    · have hkind : s.source.cursor.beyond.kind ≠ .string := by
        rw [eq_of_beq hb]
        nofun
      rw [hm', if_neg fun h => hkind h.2]
      rfl
  · rw [hm, hbeyond, if_neg fun h => Bool.false_ne_true h.1]
    rfl

end Parse

-- ================================================================= seams

section Seams

variable {before x y : List Piece} {w : Piece}

/-- A word is followed by a parenthesis in both texts or in none. -/
theorem Parted.parenthesis (h : Parted (w :: before) x y)
    (hw : w.kind = .word) :
    x[0]?.any (·.isSymbol "(") = y[0]?.any (·.isSymbol "(") := by
  cases h with
  | done => rfl
  | same p h => rfl
  | @cut _ x y d hd hc =>
      have hcall : y[0]?.any (·.isSymbol "(") = false := by
        unfold cutsCall at hc
        rw [Bool.or_eq_false_iff, Bool.or_eq_false_iff] at hc
        have hfirst := hc.1.1
        simp only [List.getElem?_cons_zero, Option.any_some, hw, beq_self_eq_true,
          Bool.true_and] at hfirst
        exact hfirst
      rw [hcall]
      show d.isSymbol "(" = false
      unfold Piece.isSymbol
      rw [hd]
      rfl

/-- `DYNAMIC-FUNCTION` is given the same name in both texts, or none. -/
theorem Parted.name (h : Parted (w :: before) x y)
    (hw : w.isWord "DYNAMIC-FUNCTION" = true) : nameIn? x = nameIn? y := by
  have hkind : w.kind = .word := eq_of_beq (Bool.and_eq_true_iff.1 hw).1
  have hparen := h.parenthesis hkind
  cases h with
  | done => rfl
  | @cut _ x y d hd hc =>
      have hdirective : d.isSymbol "(" = false := by
        unfold Piece.isSymbol
        rw [hd]
        rfl
      have hcall : y[0]?.any (·.isSymbol "(") = false := hparen ▸ hdirective
      have hnone : ∀ l : List Piece, l[0]?.any (·.isSymbol "(") = false →
          nameIn? l = none := by
        intro l hl
        match l with
        | [] => rfl
        | [_] => rfl
        | p :: q :: rest =>
            have hp : p.isSymbol "(" = false := hl
            exact if_neg fun h => Bool.false_ne_true (hp ▸ h.1)
      rw [hnone (d :: x) hdirective, hnone y hcall]
  | @same _ x y p h =>
      cases h with
      | done => rfl
      | same q h => rfl
      | @cut _ x y d hd hc =>
          -- the directive stands between the parenthesis and the name
          have hnone : ∀ l : List Piece,
              (p.isSymbol "(" = true → l[0]?.any (·.kind == .string) = false) →
              nameIn? (p :: l) = none := by
            intro l hl
            match l with
            | [] => rfl
            | q :: rest =>
                refine if_neg fun h => ?_
                have hq : (q.kind == .string) = false := hl h.1
                rw [h.2] at hq
                cases hq
          rw [hnone (d :: x) fun _ => ?_, hnone y fun hp => ?_]
          · unfold cutsCall at hc
            rw [Bool.or_eq_false_iff] at hc
            have hthird := hc.2
            simp only [List.getElem?_cons_zero, List.getElem?_cons_succ,
              Option.any_some, hw, hp, Bool.true_and] at hthird
            exact hthird
          · show (d.kind == .string) = false
            rw [hd]
            rfl

/-- The last token with a meaning is the last one kept, or a directive that
cuts no call. -/
def Behind (passed : List Token) (before after : List Piece) : Prop :=
  (meanings passed)[0]? = before[0]?
    ∨ (∃ d, (meanings passed)[0]? = some d ∧ d.kind = .directive)
      ∧ cutsCall before after = false

/-- A word may be a call in both texts or in none. -/
theorem Parse.mayCall_alike {s s' : Parse.State}
    (hb : s.source.cursor.beyond.isEof = true)
    (hb' : s'.source.cursor.beyond.isEof = true) (hw : w.kind = .word)
    (hbefore : meanings s'.source.cursor.passed.tail = before)
    (hbehind : Behind s.source.cursor.passed.tail before
      (w :: meanings s'.source.cursor.ahead))
    (hahead : Parted (w :: before) (meanings s.source.cursor.ahead)
      (meanings s'.source.cursor.ahead)) : s.mayCall = s'.mayCall := by
  rw [State.mayCall_eq hb, State.mayCall_eq hb', hahead.parenthesis hw, hbefore]
  cases hcall : (meanings s'.source.cursor.ahead)[0]?.any (·.isSymbol "(") with
  | false => rfl
  | true =>
      rcases hbehind with hsame | ⟨⟨d, hd, hkind⟩, hcut⟩
      · rw [hsame]
      · have hdirective : d.isQualifier = false := by
          unfold Piece.isQualifier Piece.isSymbol Piece.isWord
          rw [hkind]
          rfl
        have hqualifier : before[0]?.any (·.isQualifier) = false := by
          unfold cutsCall at hcut
          rw [Bool.or_eq_false_iff, Bool.or_eq_false_iff] at hcut
          have hsecond := hcut.1.2
          rw [List.getElem?_cons_zero, List.getElem?_cons_succ, hcall,
            Option.any_some, hw, Bool.and_true] at hsecond
          rw [← hsecond]
          exact (Bool.and_true _).symm
        rw [hd, hqualifier, Option.any_some, hdirective]

end Seams

end AblOutline
