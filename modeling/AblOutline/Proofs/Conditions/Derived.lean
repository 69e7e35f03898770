/-
Whatever is read as a condition was derived (`soundUpTo`), and in one way only
(`Derivation.tokens_split`): the first token of each part tells which alternative
it is, and a token that continues a part cannot follow it.
-/
import AblOutline.Proofs.Conditions.Reading

namespace AblOutline.Condition

open Text

-- ============================================================= soundness

namespace Expression

/-- All that is read in so many steps was derived. -/
structure SoundUpTo (fuel : Nat) : Prop where
  or : ∀ {ts e rest}, readOr fuel ts = some (e, rest) →
    ∃ d : Derivation .or, ts = d.tokens ++ rest ∧ e = d.expression
  orMore : ∀ {left ts e rest}, readOrMore fuel left ts = some (e, rest) →
    ∃ d : Derivation .orMore, ts = d.tokens ++ rest ∧ e = d.expression left
  and : ∀ {ts e rest}, readAnd fuel ts = some (e, rest) →
    ∃ d : Derivation .and, ts = d.tokens ++ rest ∧ e = d.expression
  andMore : ∀ {left ts e rest}, readAndMore fuel left ts = some (e, rest) →
    ∃ d : Derivation .andMore, ts = d.tokens ++ rest ∧ e = d.expression left
  not : ∀ {ts e rest}, readNot fuel ts = some (e, rest) →
    ∃ d : Derivation .not, ts = d.tokens ++ rest ∧ e = d.expression
  comparison : ∀ {ts e rest}, readComparison fuel ts = some (e, rest) →
    ∃ d : Derivation .comparison, ts = d.tokens ++ rest ∧ e = d.expression
  sum : ∀ {ts e rest}, readSum fuel ts = some (e, rest) →
    ∃ d : Derivation .sum, ts = d.tokens ++ rest ∧ e = d.expression
  sumMore : ∀ {left ts e rest}, readSumMore fuel left ts = some (e, rest) →
    ∃ d : Derivation .sumMore, ts = d.tokens ++ rest ∧ e = d.expression left
  operand : ∀ {ts e rest}, readOperand fuel ts = some (e, rest) →
    ∃ d : Derivation .operand, ts = d.tokens ++ rest ∧ e = d.expression

section Words

variable {ts rest : List Token} {e : Expression}

theorem readDefined_sound (h : readDefined ts = some (e, rest)) :
    ∃ opening name closing, ts = opening :: name :: closing :: rest
      ∧ opening.isSymbol "(" = true ∧ name.kind = .word ∧ closing.isSymbol ")" = true
      ∧ e = .defined name.text := by
  unfold readDefined at h
  split at h
  · rename_i opening name closing more
    split at h
    · rename_i hall
      simp only [Bool.and_eq_true, beq_iff_eq] at hall
      obtain ⟨⟨ho, hn⟩, hc⟩ := hall
      cases h
      exact ⟨opening, name, closing, rfl, ho, hn, hc, rfl⟩
    · cases h
  · cases h

theorem readWord_sound {word : Token} (hk : word.kind = .word)
    (h : readWord word.text ts = some (e, rest)) :
    ∃ d : Derivation .operand, word :: ts = d.tokens ++ rest ∧ e = d.expression := by
  unfold readWord at h
  split at h
  · rename_i hdefined
    obtain ⟨opening, name, closing, rfl, ho, hn, hc, rfl⟩ := readDefined_sound h
    have hw : word.isWord "DEFINED" = true := Token.isWord_iff.2 ⟨hk, hdefined⟩
    exact ⟨.defined word opening name closing hw ho hn hc, rfl, rfl⟩
  · obtain ⟨c, hc, he⟩ := Option.map_eq_some_iff.1 h
    cases he
    exact ⟨.constant word c (Constant.isSpelled_of_ofWord? hk hc), rfl, rfl⟩

end Words

section Succ

variable {fuel : Nat} (h : SoundUpTo fuel) {ts rest : List Token} {left e : Expression}

include h

theorem readOr_sound (hr : readOr (fuel + 1) ts = some (e, rest)) :
    ∃ d : Derivation .or, ts = d.tokens ++ rest ∧ e = d.expression := by
  rw [readOr] at hr
  obtain ⟨⟨left, mid⟩, hleft, hmore⟩ := Option.bind_eq_some_iff.1 hr
  obtain ⟨first, rfl, rfl⟩ := h.and hleft
  obtain ⟨more, rfl, rfl⟩ := h.orMore hmore
  exact ⟨.or first more, (List.append_assoc ..).symm, rfl⟩

theorem readOrMore_sound (hr : readOrMore (fuel + 1) left ts = some (e, rest)) :
    ∃ d : Derivation .orMore, ts = d.tokens ++ rest ∧ e = d.expression left := by
  cases ts with
  | nil =>
      cases hr
      exact ⟨.orEnd, rfl, rfl⟩
  | cons t ts =>
      rw [readOrMore] at hr
      split at hr
      · rename_i hword
        obtain ⟨⟨right, mid⟩, hright, hmore⟩ := Option.bind_eq_some_iff.1 hr
        obtain ⟨next, rfl, rfl⟩ := h.and hright
        obtain ⟨more, rfl, rfl⟩ := h.orMore hmore
        exact ⟨.orNext t hword next more,
          congrArg (t :: ·) (List.append_assoc ..).symm, rfl⟩
      · cases hr
        exact ⟨.orEnd, rfl, rfl⟩

theorem readAnd_sound (hr : readAnd (fuel + 1) ts = some (e, rest)) :
    ∃ d : Derivation .and, ts = d.tokens ++ rest ∧ e = d.expression := by
  rw [readAnd] at hr
  obtain ⟨⟨left, mid⟩, hleft, hmore⟩ := Option.bind_eq_some_iff.1 hr
  obtain ⟨first, rfl, rfl⟩ := h.not hleft
  obtain ⟨more, rfl, rfl⟩ := h.andMore hmore
  exact ⟨.and first more, (List.append_assoc ..).symm, rfl⟩

theorem readAndMore_sound (hr : readAndMore (fuel + 1) left ts = some (e, rest)) :
    ∃ d : Derivation .andMore, ts = d.tokens ++ rest ∧ e = d.expression left := by
  cases ts with
  | nil =>
      cases hr
      exact ⟨.andEnd, rfl, rfl⟩
  | cons t ts =>
      rw [readAndMore] at hr
      split at hr
      · rename_i hword
        obtain ⟨⟨right, mid⟩, hright, hmore⟩ := Option.bind_eq_some_iff.1 hr
        obtain ⟨next, rfl, rfl⟩ := h.not hright
        obtain ⟨more, rfl, rfl⟩ := h.andMore hmore
        exact ⟨.andNext t hword next more,
          congrArg (t :: ·) (List.append_assoc ..).symm, rfl⟩
      · cases hr
        exact ⟨.andEnd, rfl, rfl⟩

theorem readNot_sound (hr : readNot (fuel + 1) ts = some (e, rest)) :
    ∃ d : Derivation .not, ts = d.tokens ++ rest ∧ e = d.expression := by
  cases ts with
  | nil =>
      obtain ⟨c, hts, rfl⟩ := h.comparison hr
      exact ⟨.affirm c, hts, rfl⟩
  | cons t ts =>
      rw [readNot] at hr
      split at hr
      · rename_i hword
        obtain ⟨⟨operand, mid⟩, hoperand, he⟩ := Option.bind_eq_some_iff.1 hr
        obtain ⟨denied, rfl, rfl⟩ := h.not hoperand
        cases he
        exact ⟨.deny t hword denied, rfl, rfl⟩
      · obtain ⟨c, hts, rfl⟩ := h.comparison hr
        exact ⟨.affirm c, hts, rfl⟩

theorem readComparison_sound (hr : readComparison (fuel + 1) ts = some (e, rest)) :
    ∃ d : Derivation .comparison, ts = d.tokens ++ rest ∧ e = d.expression := by
  rw [readComparison] at hr
  obtain ⟨⟨left, mid⟩, hleft, hmore⟩ := Option.bind_eq_some_iff.1 hr
  obtain ⟨first, rfl, rfl⟩ := h.sum hleft
  cases mid with
  | nil =>
      cases hmore
      exact ⟨.single first, rfl, rfl⟩
  | cons t more =>
      dsimp only at hmore
      split at hmore
      · cases hmore
        exact ⟨.single first, rfl, rfl⟩
      · rename_i how hhow
        obtain ⟨⟨right, mid⟩, hright, he⟩ := Option.bind_eq_some_iff.1 hmore
        obtain ⟨second, rfl, rfl⟩ := h.sum hright
        cases he
        have hspelled := Comparison.isSpelled_of_ofToken? hhow
        refine ⟨.compare first t how hspelled second, ?_, rfl⟩
        simp only [Derivation.tokens, List.cons_append, List.append_assoc]

theorem readSum_sound (hr : readSum (fuel + 1) ts = some (e, rest)) :
    ∃ d : Derivation .sum, ts = d.tokens ++ rest ∧ e = d.expression := by
  rw [readSum] at hr
  obtain ⟨⟨left, mid⟩, hleft, hmore⟩ := Option.bind_eq_some_iff.1 hr
  obtain ⟨first, rfl, rfl⟩ := h.operand hleft
  obtain ⟨more, rfl, rfl⟩ := h.sumMore hmore
  exact ⟨.sum first more, (List.append_assoc ..).symm, rfl⟩

theorem readSumMore_sound (hr : readSumMore (fuel + 1) left ts = some (e, rest)) :
    ∃ d : Derivation .sumMore, ts = d.tokens ++ rest ∧ e = d.expression left := by
  cases ts with
  | nil =>
      cases hr
      exact ⟨.sumEnd, rfl, rfl⟩
  | cons t ts =>
      rw [readSumMore] at hr
      split at hr
      · rename_i hmark
        obtain ⟨⟨right, mid⟩, hright, hmore⟩ := Option.bind_eq_some_iff.1 hr
        obtain ⟨next, rfl, rfl⟩ := h.operand hright
        obtain ⟨more, rfl, rfl⟩ := h.sumMore hmore
        exact ⟨.plus t hmark next more,
          congrArg (t :: ·) (List.append_assoc ..).symm, rfl⟩
      · split at hr
        · rename_i hmark
          obtain ⟨⟨right, mid⟩, hright, hmore⟩ := Option.bind_eq_some_iff.1 hr
          obtain ⟨next, rfl, rfl⟩ := h.operand hright
          obtain ⟨more, rfl, rfl⟩ := h.sumMore hmore
          exact ⟨.minus t hmark next more,
            congrArg (t :: ·) (List.append_assoc ..).symm, rfl⟩
        · cases hr
          exact ⟨.sumEnd, rfl, rfl⟩

theorem readOperand_sound (hr : readOperand (fuel + 1) ts = some (e, rest)) :
    ∃ d : Derivation .operand, ts = d.tokens ++ rest ∧ e = d.expression := by
  cases ts with
  | nil => cases hr
  | cons t ts =>
      rw [readOperand] at hr
      cases hk : t.kind with
      | number =>
          rw [hk] at hr
          cases hr
          exact ⟨.number t hk, rfl, rfl⟩
      | string =>
          rw [hk] at hr
          cases hr
          exact ⟨.text t hk, rfl, rfl⟩
      | word =>
          rw [hk] at hr
          exact readWord_sound hk hr
      | symbol =>
          rw [hk] at hr
          dsimp only at hr
          split at hr
          · rename_i hopening
            obtain ⟨⟨inner, mid⟩, hinner, hclosing⟩ := Option.bind_eq_some_iff.1 hr
            obtain ⟨d, rfl, rfl⟩ := h.or hinner
            cases mid with
            | nil => cases hclosing
            | cons closing more =>
                obtain ⟨hc, he⟩ := Option.ite_none_right_eq_some.1 hclosing
                cases he
                have ho := Token.isSymbol_iff.2 ⟨hk, hopening⟩
                refine ⟨.group t ho d closing hc, ?_, rfl⟩
                simp only [Derivation.tokens, List.cons_append, List.append_assoc,
                  List.nil_append]
          · split at hr
            · rename_i hmark
              obtain ⟨⟨operand, mid⟩, hoperand, he⟩ := Option.bind_eq_some_iff.1 hr
              obtain ⟨d, rfl, rfl⟩ := h.operand hoperand
              cases he
              exact ⟨.negative t (Token.isSymbol_iff.2 ⟨hk, hmark⟩) d, rfl, rfl⟩
            · cases hr
      | _ =>
          rw [hk] at hr
          cases hr

end Succ

theorem soundUpTo (fuel : Nat) : SoundUpTo fuel := by
  induction fuel with
  | zero => exact ⟨nofun, nofun, nofun, nofun, nofun, nofun, nofun, nofun, nofun⟩
  | succ fuel ih =>
      exact ⟨readOr_sound ih, readOrMore_sound ih, readAnd_sound ih, readAndMore_sound ih,
        readNot_sound ih, readComparison_sound ih, readSum_sound ih, readSumMore_sound ih,
        readOperand_sound ih⟩

end Expression

-- ============================================================ uniqueness

namespace Derivation

open Nonterminal

theorem isSpelled_unique {t : Token} {how how' : Comparison} (h : how.IsSpelled t)
    (h' : how'.IsSpelled t) : how = how' :=
  Option.some.inj ((Comparison.ofToken?_of_isSpelled h).symm.trans
    (Comparison.ofToken?_of_isSpelled h'))

theorem constant_unique {t : Token} {c c' : Constant} (h : c.IsSpelled t)
    (h' : c'.IsSpelled t) : c = c' :=
  Option.some.inj ((Constant.ofWord?_of_isSpelled h).2.2.symm.trans
    (Constant.ofWord?_of_isSpelled h').2.2)

theorem not_isSpelled_defined {t : Token} {c : Constant} (h : c.IsSpelled t) :
    t.kind = .word ∧ t.isWord "DEFINED" = false := by
  obtain ⟨hk, hne, -⟩ := Constant.ofWord?_of_isSpelled h
  refine ⟨hk, Bool.eq_false_iff.2 fun hw => hne ?_⟩
  rw [(Token.isWord_iff.1 hw).2]
  decide

section Start

variable {t : Token} {n : Nonterminal} {ts rest : List Token}

theorem not_endsBefore (h : n.continues t = true) (hts : rest = t :: ts) :
    ¬ n.EndsBefore rest := by
  rw [hts, endsBefore_cons, h]
  decide

theorem not_endsBefore_or (h : t.isWord "OR" = true) (hts : rest = t :: ts) :
    ¬ Nonterminal.orMore.EndsBefore rest :=
  not_endsBefore (by simp only [continues, continuesOr, h, Bool.true_or]) hts

theorem not_endsBefore_and (h : t.isWord "AND" = true) (hts : rest = t :: ts) :
    ¬ Nonterminal.andMore.EndsBefore rest :=
  not_endsBefore (by simp only [continues, continuesAnd, h, Bool.true_or]) hts

theorem not_endsBefore_plus (h : t.isSymbol "+" = true) (hts : rest = t :: ts) :
    ¬ Nonterminal.sumMore.EndsBefore rest :=
  not_endsBefore (by simp only [continues, continuesSum, h, Bool.true_or]) hts

theorem not_endsBefore_minus (h : t.isSymbol "-" = true) (hts : rest = t :: ts) :
    ¬ Nonterminal.sumMore.EndsBefore rest :=
  not_endsBefore (by simp only [continues, continuesSum, h, Bool.or_true]) hts

theorem not_endsBefore_compare {how : Comparison} (h : how.IsSpelled t)
    (hts : rest = t :: ts) : ¬ Nonterminal.comparison.EndsBefore rest :=
  not_endsBefore (by
    simp only [continues, continuesComparison, Comparison.ofToken?_of_isSpelled h,
      Option.isSome_some, Bool.true_or]) hts

end Start

/-- Tokens are derived in one way, up to what cannot continue them. -/
theorem tokens_split {n : Nonterminal} (d d' : Derivation n) {rest rest' : List Token}
    (hends : n.EndsBefore rest) (hends' : n.EndsBefore rest')
    (h : d.tokens ++ rest = d'.tokens ++ rest') : d = d' ∧ rest = rest' := by
  induction d generalizing rest rest' with
  | or first more ihFirst ihMore =>
      cases d' with
      | or first' more' =>
          simp only [tokens, List.append_assoc] at h
          obtain ⟨rfl, hmore⟩ := ihFirst first' (endsBefore_orMore more hends)
            (endsBefore_orMore more' hends') h
          obtain ⟨rfl, hrest⟩ := ihMore more' hends hends' hmore
          exact ⟨rfl, hrest⟩
  | orEnd =>
      cases d' with
      | orEnd => exact ⟨rfl, h⟩
      | orNext word hword next more => exact absurd hends (not_endsBefore_or hword h)
  | orNext word hword next more ihNext ihMore =>
      cases d' with
      | orEnd => exact absurd hends' (not_endsBefore_or hword h.symm)
      | orNext word' hword' next' more' =>
          simp only [tokens, List.cons_append, List.append_assoc, List.cons.injEq] at h
          obtain ⟨rfl, h⟩ := h
          obtain ⟨rfl, hmore⟩ := ihNext next' (endsBefore_orMore more hends)
            (endsBefore_orMore more' hends') h
          obtain ⟨rfl, hrest⟩ := ihMore more' hends hends' hmore
          exact ⟨rfl, hrest⟩
  | and first more ihFirst ihMore =>
      cases d' with
      | and first' more' =>
          simp only [tokens, List.append_assoc] at h
          obtain ⟨rfl, hmore⟩ := ihFirst first' (endsBefore_andMore more hends)
            (endsBefore_andMore more' hends') h
          obtain ⟨rfl, hrest⟩ := ihMore more' hends hends' hmore
          exact ⟨rfl, hrest⟩
  | andEnd =>
      cases d' with
      | andEnd => exact ⟨rfl, h⟩
      | andNext word hword next more => exact absurd hends (not_endsBefore_and hword h)
  | andNext word hword next more ihNext ihMore =>
      cases d' with
      | andEnd => exact absurd hends' (not_endsBefore_and hword h.symm)
      | andNext word' hword' next' more' =>
          simp only [tokens, List.cons_append, List.append_assoc, List.cons.injEq] at h
          obtain ⟨rfl, h⟩ := h
          obtain ⟨rfl, hmore⟩ := ihNext next' (endsBefore_andMore more hends)
            (endsBefore_andMore more' hends') h
          obtain ⟨rfl, hrest⟩ := ihMore more' hends hends' hmore
          exact ⟨rfl, hrest⟩
  | deny word hword denied ih =>
      cases d' with
      | deny word' hword' denied' =>
          simp only [tokens, List.cons_append, List.cons.injEq] at h
          obtain ⟨rfl, h⟩ := h
          obtain ⟨rfl, hrest⟩ := ih denied' hends hends' h
          exact ⟨rfl, hrest⟩
      | affirm c =>
          obtain ⟨t, ts, hts, hnot⟩ := head_comparison c
          simp only [tokens, hts, List.cons_append, List.cons.injEq] at h
          rw [← h.1, hword] at hnot
          cases hnot
  | affirm c ih =>
      cases d' with
      | deny word hword denied =>
          obtain ⟨t, ts, hts, hnot⟩ := head_comparison c
          simp only [tokens, hts, List.cons_append, List.cons.injEq] at h
          rw [h.1, hword] at hnot
          cases hnot
      | affirm c' =>
          obtain ⟨rfl, hrest⟩ := ih c' hends hends' h
          exact ⟨rfl, hrest⟩
  | single s ih =>
      cases d' with
      | single s' =>
          obtain ⟨rfl, hrest⟩ := ih s' (endsBefore_sum hends) (endsBefore_sum hends') h
          exact ⟨rfl, hrest⟩
      | compare left operator how hhow right =>
          simp only [tokens, List.append_assoc, List.cons_append] at h
          obtain ⟨-, hrest⟩ := ih left (endsBefore_sum hends)
            (endsBefore_cons.2 (continuesSum_compare hhow)) h
          exact absurd hends (not_endsBefore_compare hhow hrest)
  | compare left operator how hhow right ihLeft ihRight =>
      simp only [tokens, List.append_assoc, List.cons_append] at h
      have hleft : Nonterminal.sum.EndsBefore (operator :: (right.tokens ++ rest)) :=
        endsBefore_cons.2 (continuesSum_compare hhow)
      cases d' with
      | single s =>
          obtain ⟨-, hrest⟩ := ihLeft s hleft (endsBefore_sum hends') h
          exact absurd hends' (not_endsBefore_compare hhow hrest.symm)
      | compare left' operator' how' hhow' right' =>
          simp only [tokens, List.append_assoc, List.cons_append] at h
          obtain ⟨rfl, hoperator⟩ := ihLeft left' hleft
            (endsBefore_cons.2 (continuesSum_compare hhow')) h
          obtain ⟨rfl, hright⟩ := List.cons.inj hoperator
          obtain ⟨rfl, hrest⟩ := ihRight right' (endsBefore_sum hends)
            (endsBefore_sum hends') hright
          obtain rfl := isSpelled_unique hhow hhow'
          exact ⟨rfl, hrest⟩
  | sum first more ihFirst ihMore =>
      cases d' with
      | sum first' more' =>
          simp only [tokens, List.append_assoc] at h
          obtain ⟨rfl, hmore⟩ :=
            ihFirst first' (endsBefore_operand _) (endsBefore_operand _) h
          obtain ⟨rfl, hrest⟩ := ihMore more' hends hends' hmore
          exact ⟨rfl, hrest⟩
  | sumEnd =>
      cases d' with
      | sumEnd => exact ⟨rfl, h⟩
      | plus mark hmark next more => exact absurd hends (not_endsBefore_plus hmark h)
      | minus mark hmark next more => exact absurd hends (not_endsBefore_minus hmark h)
  | plus mark hmark next more ihNext ihMore =>
      cases d' with
      | sumEnd => exact absurd hends' (not_endsBefore_plus hmark h.symm)
      | plus mark' hmark' next' more' =>
          simp only [tokens, List.cons_append, List.append_assoc, List.cons.injEq] at h
          obtain ⟨rfl, h⟩ := h
          obtain ⟨rfl, hmore⟩ :=
            ihNext next' (endsBefore_operand _) (endsBefore_operand _) h
          obtain ⟨rfl, hrest⟩ := ihMore more' hends hends' hmore
          exact ⟨rfl, hrest⟩
      | minus mark' hmark' next' more' =>
          simp only [tokens, List.cons_append, List.cons.injEq] at h
          rw [← h.1, isSymbol_other hmark (by decide)] at hmark'
          cases hmark'
  | minus mark hmark next more ihNext ihMore =>
      cases d' with
      | sumEnd => exact absurd hends' (not_endsBefore_minus hmark h.symm)
      | plus mark' hmark' next' more' =>
          simp only [tokens, List.cons_append, List.cons.injEq] at h
          rw [← h.1, isSymbol_other hmark (by decide)] at hmark'
          cases hmark'
      | minus mark' hmark' next' more' =>
          simp only [tokens, List.cons_append, List.append_assoc, List.cons.injEq] at h
          obtain ⟨rfl, h⟩ := h
          obtain ⟨rfl, hmore⟩ :=
            ihNext next' (endsBefore_operand _) (endsBefore_operand _) h
          obtain ⟨rfl, hrest⟩ := ihMore more' hends hends' hmore
          exact ⟨rfl, hrest⟩
  | number written hw =>
      cases d' with
      | number written' hw' =>
          simp only [tokens, List.cons_append, List.nil_append, List.cons.injEq] at h
          obtain ⟨rfl, rfl⟩ := h
          exact ⟨rfl, rfl⟩
      | _ => grind [tokens, Token.isSymbol_iff, Token.isWord_iff, not_isSpelled_defined]
  | text literal hl =>
      cases d' with
      | text literal' hl' =>
          simp only [tokens, List.cons_append, List.nil_append, List.cons.injEq] at h
          obtain ⟨rfl, rfl⟩ := h
          exact ⟨rfl, rfl⟩
      | _ => grind [tokens, Token.isSymbol_iff, Token.isWord_iff, not_isSpelled_defined]
  | group opening ho inner closing hc ih =>
      cases d' with
      | group opening' ho' inner' closing' hc' =>
          simp only [tokens, List.cons_append, List.append_assoc, List.nil_append,
            List.cons.injEq] at h
          obtain ⟨rfl, h⟩ := h
          obtain ⟨rfl, hclosing⟩ := ih inner' (endsBefore_cons.2 (continuesOr_closing hc))
            (endsBefore_cons.2 (continuesOr_closing hc')) h
          obtain ⟨rfl, hrest⟩ := List.cons.inj hclosing
          exact ⟨rfl, hrest⟩
      | _ => grind [tokens, Token.isSymbol_iff, Token.isWord_iff, not_isSpelled_defined]
  | negative mark hmark operand ih =>
      cases d' with
      | negative mark' hmark' operand' =>
          simp only [tokens, List.cons_append, List.cons.injEq] at h
          obtain ⟨rfl, h⟩ := h
          obtain ⟨rfl, hrest⟩ :=
            ih operand' (endsBefore_operand _) (endsBefore_operand _) h
          exact ⟨rfl, hrest⟩
      | _ => grind [tokens, Token.isSymbol_iff, Token.isWord_iff, not_isSpelled_defined]
  | constant word c hc =>
      cases d' with
      | constant word' c' hc' =>
          simp only [tokens, List.cons_append, List.nil_append, List.cons.injEq] at h
          obtain ⟨rfl, rfl⟩ := h
          obtain rfl := constant_unique hc hc'
          exact ⟨rfl, rfl⟩
      | _ => grind [tokens, Token.isSymbol_iff, Token.isWord_iff, not_isSpelled_defined]
  | defined word opening name closing hw ho hn hc =>
      cases d' with
      | defined word' opening' name' closing' hw' ho' hn' hc' =>
          simp only [tokens, List.cons_append, List.nil_append, List.cons.injEq] at h
          obtain ⟨rfl, rfl, rfl, rfl, rfl⟩ := h
          exact ⟨rfl, rfl⟩
      | _ => grind [tokens, Token.isSymbol_iff, Token.isWord_iff, not_isSpelled_defined]

end Derivation

end AblOutline.Condition
