/-
Reading comes to an end. A condition and a line are read one token after the
other, each of them expanded first. Where no value shows a reference, either
that uses up references of the stream, or the place that is read moves on in a
stream that stays as it is (`weight`); so a directive has its operands after
some number of steps, whatever stands ahead of it.
-/
import AblOutline.Proofs.Operands.Directives
import AblOutline.Proofs.Steps
import AblOutline.Proofs.Termination.Values
import Mathlib.Data.Prod.Lex
import Mathlib.Order.WellFounded

namespace AblOutline.Parse

open Preprocess

-- ================================================================== weight

/-- What is left to read from `a` on: references, then tokens. -/
def weight (a : Ahead) (s : State) : Nat ×ₗ Nat :=
  toLex (references s.source.cursor.ahead,
    s.source.cursor.ahead.length - a.skipped)

section Weight

variable {a b : Ahead} {s u : State}

/-- A token that is there lies before the end of the stream. -/
theorem lt_length_of_peekAhead {c : Cursor} (hb : c.beyond.isEof = true)
    (h : (c.peekAhead a).isEof = false) : a.skipped < c.ahead.length := by
  by_contra hlt
  unfold Cursor.peekAhead at h
  rw [List.getElem?_eq_none (Nat.le_of_not_lt hlt), Option.getD_none, hb] at h
  cases h

/-- To read on from a later place is to have less left. -/
theorem weight_lt (h : u.source.cursor.ahead = s.source.cursor.ahead
      ∨ references u.source.cursor.ahead < references s.source.cursor.ahead)
    (ha : a.skipped < u.source.cursor.ahead.length)
    (hab : a.skipped < b.skipped) : weight b u < weight a s := by
  refine Prod.Lex.toLex_lt_toLex.2 ?_
  rcases h with he | hlt
  · rw [he] at ha ⊢
    exact Or.inr ⟨rfl, by omega⟩
  · exact Or.inl hlt

end Weight

-- ================================================================ operands

section Operands

variable {env : Environment} {live : Bool} {steps : Nat} {a : Ahead}
  {s s' : State} {o : Operands}

/-- The end of a condition is found. -/
theorem readCondition_ends
    (hs : live = true → ¬ s.source.ShowsReference env.options.platform)
    (hb : s.source.cursor.beyond.isEof = true) (a : Ahead) :
    ∃ steps, (readCondition env live steps a s).isSome = true := by
  induction hw : weight a s using WellFoundedLT.induction generalizing a s with
  | ind w ih =>
      have hlook := (lookAt_substitutions env live s a).sinks
      have hb' := hlook.beyond ▸ hb
      cases heof : ((lookAt env live a s).source.cursor.peekAhead a).isEof with
      | true =>
          refine ⟨1, ?_⟩
          unfold readCondition
          dsimp only
          rw [if_pos heof]
          rfl
      | false =>
          have hlt := weight_lt (b := a.next) (lookAt_lighter s a hs)
            (lt_length_of_peekAhead hb' heof) (Nat.lt_succ_self _)
          obtain ⟨steps, hrest⟩ := ih _ (hw ▸ hlt)
            (fun hlive => hlook.shows (hs hlive)) hb' _ rfl
          refine ⟨steps + 1, ?_⟩
          unfold readCondition
          dsimp only
          rw [heof, if_neg Bool.false_ne_true]
          split
          · rfl
          · rw [Option.isSome_map]
            exact hrest

/-- The end of a line is found. -/
theorem readLine_ends
    (hs : live = true → ¬ s.source.ShowsReference env.options.platform)
    (hb : s.source.cursor.beyond.isEof = true) (a : Ahead) :
    ∃ steps, (readLine env live steps a s).isSome = true := by
  induction hw : weight a s using WellFoundedLT.induction generalizing a s with
  | ind w ih =>
      have hlook := (lookAt_substitutions env live s a).sinks
      have hb' := hlook.beyond ▸ hb
      by_cases hstop : (((lookAt env live a s).source.cursor.peekAhead a).isEof
          || ((lookAt env live a s).source.cursor.peekAhead a).kind == .eol)
          = true
      · refine ⟨1, ?_⟩
        unfold readLine
        dsimp only
        rw [if_pos hstop]
        rfl
      · have heof := (Bool.or_eq_false_iff.1 (Bool.eq_false_iff.2 hstop)).1
        have hon : ∀ b : Ahead, a.skipped < b.skipped →
            ∃ steps, (readLine env live steps b (lookAt env live a s)).isSome
              = true := fun b hab =>
          ih _ (hw ▸ weight_lt (lookAt_lighter s a hs)
              (lt_length_of_peekAhead hb' heof) hab)
            (fun hlive => hlook.shows (hs hlive)) hb' b rfl
        by_cases htilde : (((lookAt env live a s).source.cursor.peekAhead
            a).isSymbol "~" && ((lookAt env live a s).source.cursor.peekAhead
              a.next).kind == .eol) = true
        · obtain ⟨steps, hrest⟩ :=
            hon a.next.next (Nat.lt_succ_of_lt (Nat.lt_succ_self _))
          refine ⟨steps + 1, ?_⟩
          unfold readLine
          dsimp only
          rw [if_neg hstop, if_pos htilde, Option.isSome_map]
          exact hrest
        · obtain ⟨steps, hrest⟩ := hon a.next (Nat.lt_succ_self _)
          refine ⟨steps + 1, ?_⟩
          unfold readLine
          dsimp only
          rw [if_neg hstop, if_neg htilde, Option.isSome_map]
          exact hrest

theorem takeCondition_sinks
    (h : s.takeCondition env steps live = some (s', o)) :
    Sinks env.options.platform s.source s'.source := by
  obtain ⟨⟨u, o'⟩, hu, he⟩ := Option.map_eq_some_iff.1 h
  cases he
  exact (readCondition_substitutions hu).1.sinks.trans (.aside rfl rfl rfl)

theorem takeLine_sinks (h : s.takeLine env steps live = some (s', o)) :
    Sinks env.options.platform s.source s'.source := by
  obtain ⟨⟨u, o'⟩, hu, he⟩ := Option.map_eq_some_iff.1 h
  cases he
  exact (readLine_substitutions hu).1.sinks.trans (.aside rfl rfl rfl)

/-- The operands of a directive come to their end. -/
theorem takeOperands_ends (t : Token)
    (hs : s.expandsOperands t = true →
      ¬ s.source.ShowsReference env.options.platform)
    (hb : s.source.cursor.beyond.isEof = true) :
    ∃ steps, (s.takeOperands env steps t).isSome = true := by
  unfold State.takeOperands
  split
  · obtain ⟨steps, h⟩ := readCondition_ends hs hb .nearest
    exact ⟨steps, Option.isSome_map.trans h⟩
  · obtain ⟨steps, h⟩ := readLine_ends hs hb .nearest
    exact ⟨steps, Option.isSome_map.trans h⟩

end Operands

-- ============================================================== directives

/-- The stream is that of a source that was read on. -/
def Lowers (platform : Platform) (s s' : State) : Prop :=
  ∃ u, Sinks platform s.source u ∧ s'.source.stream = u.stream

section Directives

variable {env : Environment} {steps : Nat} {s s' u : State} {t : Token}
  {out : Outcome}

/-- A directive comes to an end. -/
theorem directive_ends (t : Token)
    (hs : s.expandsOperands t = true →
      ¬ s.source.ShowsReference env.options.platform)
    (hb : s.source.cursor.beyond.isEof = true) :
    ∃ steps, (s.directive env steps t).isSome = true := by
  by_cases htakes : (Directive.ofWord t.text).takesOperands = true
  · obtain ⟨steps, h⟩ := takeOperands_ends t hs hb
    exact ⟨steps, directive_of_takeOperands htakes h⟩
  · refine ⟨0, ?_⟩
    unfold State.directive
    dsimp only
    cases hd : Directive.ofWord t.text with
    | otherwise | endIf | thenPart | other => rfl
    | ifThen | elseIf | globalDefine | scopedDefine | undefine
    | analyzeSuspend | analyzeResume | message =>
        rw [hd] at htakes
        exact absurd rfl htakes

end Directives

-- ================================================================== tokens

section Tokens

variable {env : Environment} {steps : Nat} {s s' : State} {t : Token}

/-- What a token says reads its operands, if it has any. -/
theorem look_lowers {ended : Option Statement} {out : Outcome}
    (h : s.look env steps t ended = some out) :
    Lowers env.options.platform s out.state := by
  obtain ⟨u, hread, hstream, -⟩ := look_onlyReads h
  rcases hread with rfl | ⟨live, o, hu⟩ | ⟨live, o, hu⟩
  · exact ⟨_, .refl _, hstream⟩
  · exact ⟨_, takeCondition_sinks hu, hstream⟩
  · exact ⟨_, takeLine_sinks hu, hstream⟩

/-- To take a token is to read its operands, if it has any. -/
theorem takeToken_lowers (h : s.takeToken env steps t = some s') :
    Lowers env.options.platform s s' := by
  have hsource := observe_source s t (decide (0 < s.source.skip))
  unfold State.takeToken at h
  dsimp only at h
  split at h
  · cases h
    refine ⟨s.source, .refl _, ?_⟩
    show (s.observe t (decide (0 < s.source.skip))).2.source.stream = _
    rw [hsource]
  · obtain ⟨out, hout, rfl⟩ := Option.map_eq_some_iff.1 h
    have hlook := look_lowers hout
    unfold Lowers at hlook ⊢
    rw [hsource] at hlook
    exact hlook

/-- What a token is recorded for opens and closes no branch. -/
theorem observe_expandsOperands (s : State) (t : Token) (skipped : Bool) :
    (s.observe t skipped).2.expandsOperands t = s.expandsOperands t := by
  have hnesting : (s.observe t skipped).2.nesting = s.nesting := by
    unfold State.observe
    split
    · rfl
    · split
      · rfl
      · unfold State.stopStatement
        dsimp only
        split <;> rfl
    · rfl
  unfold State.expandsOperands State.inFalseBranch
  rw [hnesting]

/-- And it comes to an end. -/
theorem takeToken_ends (t : Token)
    (hs : s.expandsOperands t = true →
      ¬ s.source.ShowsReference env.options.platform)
    (hb : s.source.cursor.beyond.isEof = true) :
    ∃ steps, (s.takeToken env steps t).isSome = true := by
  have hsource := observe_source s t (decide (0 < s.source.skip))
  have hexpands := observe_expandsOperands s t (decide (0 < s.source.skip))
  rw [← hsource] at hs hb
  rw [← hexpands] at hs
  obtain ⟨steps, hdirective⟩ := directive_ends t hs hb
  refine ⟨steps, ?_⟩
  unfold State.takeToken
  dsimp only
  split
  · rfl
  · rw [Option.isSome_map]
    unfold State.look
    split
    · rfl
    · split
      · exact hdirective
      · split
        · rfl
        · split
          · rfl
          · rfl
          · rfl
          · split <;> rfl
          · rfl
          · rfl
          · rfl
          · rfl

end Tokens

end AblOutline.Parse
