/-
What the end of a statement does to what is followed of a state: a statement
of no special kind does nothing, a header opens the scope of its block or
procedure, and `END` closes the innermost one.
-/
import AblOutline.Proofs.Program.View
import AblOutline.Proofs.Spelling

namespace AblOutline.Parse

variable {env : Environment} {s : State} {st : Statement} {stop : Token}

-- =========================================================== statements

theorem token?_eq (st : Statement) (i : Nat) :
    st.token? i = (st.parts.map (·.token))[i]? := by
  unfold Statement.token?
  rw [List.getElem?_map]

theorem opening_eq {t : Token} {ts : List Token}
    (h : st.parts.map (·.token) = t :: ts) : st.opening = .ok t := by
  unfold Statement.opening Statement.first?
  rw [token?_eq, h]
  rfl

theorem under_none (h : s.analysis.statement.trigger = none) :
    s.under none = s := by
  obtain ⟨source, nesting, findings, analysis⟩ := s
  obtain ⟨statement, _⟩ := analysis
  obtain ⟨kind, parts, trigger⟩ := statement
  cases h
  rfl

theorem stop_text {c : Char} (h : stop.text = String.ofList [c]) :
    (stop.text == ":") = (c == ':') := by
  rw [h]
  by_cases hc : c = ':'
  · subst hc
    decide
  · rw [beq_false_of_ne hc, beq_eq_false_iff_ne]
    intro he
    have := congrArg String.toList he
    simp at this
    exact hc this

variable (env stop)

/-- The end of a statement that is no label and no action of a trigger. -/
theorem endStatement_view {o : Outcome}
    (hs : s.view.trigger = none) (hst : st.trigger = none)
    (ho : s.endByKind env st (stop.text == ":") = (o, false)) :
    (s.endStatement env st stop).state.view
        = { o.state.view with trigger := none, label := none }
      ∧ (s.endStatement env st stop).state.source = o.state.source := by
  have htrigger : s.analysis.statement.trigger = none := hs
  unfold State.endStatement
  rw [hst, under_none htrigger, ho, htrigger]
  exact ⟨rfl, rfl⟩

/-- A statement of no special kind. -/
theorem endOther_view (hs : s.view.trigger = none) (hl : s.view.label = none)
    (hst : st.trigger = none) (hk : st.kind = .other)
    (hstop : stop.text = String.ofList ['.']) :
    (s.endStatement env st stop).state.view = s.view
      ∧ (s.endStatement env st stop).state.source = s.source := by
  have hkind : s.endByKind env st (stop.text == ":") = (s.done, false) := by
    unfold State.endByKind
    rw [hk, stop_text hstop]
    rfl
  have hend := endStatement_view env stop hs hst hkind
  refine ⟨?_, hend.2⟩
  rw [hend.1]
  exact View.ext rfl rfl rfl rfl rfl rfl hs.symm hl.symm rfl

-- ============================================================== headers

/-- The header of a block. -/
theorem endHeader_view (hs : s.view.trigger = none)
    (hl : s.view.label = none) (hst : st.trigger = none)
    (hk : st.kind = .block) {opener : Token} {ts : List Token}
    (hts : st.parts.map (·.token) = opener :: ts) :
    (s.endStatement env st stop).state.view
        = { s.view with
            scopes := ⟨.block opener (Text.upper opener.text) none,
              s.rootLine opener⟩ :: s.view.scopes }
      ∧ (s.endStatement env st stop).state.source = s.source := by
  have hlabel : s.analysis.pendingLabel = none := hl
  have hhead : s.endBlockHead st
      = (State.openScope
          { s with analysis := { s.analysis with pendingLabel := none } }
          (.block opener (Text.upper opener.text) none) opener).done := by
    unfold State.endBlockHead State.reading
    rw [opening_eq hts, hst]
    dsimp only
    rw [ite_self]
    dsimp only
    rw [hlabel]
    rfl
  have hkind : s.endByKind env st (stop.text == ":")
      = (s.endBlockHead st, false) := by
    unfold State.endByKind
    rw [hk]
  have hend := endStatement_view env stop hs hst hkind
  rw [hhead] at hend
  refine ⟨?_, hend.2⟩
  rw [hend.1]
  exact View.ext rfl rfl rfl rfl rfl rfl hs.symm hl.symm rfl

/-- The header of a procedure, outside any other one. -/
theorem endProcedure_view (hs : s.view.trigger = none)
    (hl : s.view.label = none) (hst : st.trigger = none)
    (hk : st.kind = .procedure) {opener name : Token}
    (hts : st.parts.map (·.token) = [opener, name])
    (hname : name.kind = .word)
    (hno : s.nesting.openRoutines = 0) :
    (s.endStatement env st stop).state.view
        = { s.view with
            scopes := ⟨.routine s.nextItem .procedure "PROCEDURE" opener,
              s.rootLine opener⟩ :: s.view.scopes
            found := s.view.found ++ [⟨s.nextItem, name.text, none⟩] }
      ∧ (s.endStatement env st stop).state.source = s.source := by
  have hnameAt : st.nameAt 1 = .ok (name, name.text) := by
    unfold Statement.nameAt
    rw [token?_eq, hts]
    show (if name.kind = .word ∨ name.kind = .string then _ else _) = _
    rw [if_pos (Or.inl hname)]
    unfold Token.unquoted
    rw [if_neg (by rw [hname]; nofun)]
  obtain ⟨head, hhead, hopener, htoken, hnamed⟩ :
      ∃ head, st.procedureHead = .ok head ∧ head.opener = opener
        ∧ head.nameToken = name ∧ head.name = name.text := by
    unfold Statement.procedureHead
    rw [opening_eq hts, hnameAt]
    exact ⟨_, rfl, rfl, rfl, rfl⟩
  have hend : s.endProcedure st
      = ((s.addItem name.text name (.procedure head.procedure)).openScope
          (.routine s.nextItem .procedure "PROCEDURE" opener) opener).done := by
    unfold State.endProcedure State.reading
    rw [hhead, ← hnamed, ← htoken, ← hopener]
    dsimp only
    unfold State.openRoutine
    have hnone : ¬ 0 < (s.addItem head.name head.nameToken
        (.procedure head.procedure)).nesting.openRoutines := by
      show ¬ 0 < s.nesting.openRoutines
      omega
    rw [if_neg hnone]
  have hkind : s.endByKind env st (stop.text == ":")
      = (s.endProcedure st, false) := by
    unfold State.endByKind
    rw [hk]
  have hview := endStatement_view env stop hs hst hkind
  rw [hend] at hview
  have hfound := procedureEntries_addItem s name.text name
    (.procedure head.procedure)
  refine ⟨?_, hview.2⟩
  rw [hview.1]
  exact View.ext rfl rfl hfound rfl rfl rfl hs.symm hl.symm rfl

-- ================================================================== END

theorem isMismatched_eq_false {keyword : String}
    (h : st.token? 1 = none
      ∨ ∃ t, st.token? 1 = some t ∧ Text.upper t.text = keyword)
    (hlen : min keyword.utf8ByteSize 3 ≤ keyword.toList.length) :
    State.isMismatched st keyword = false := by
  unfold State.isMismatched
  rcases h with h | ⟨t, h, ht⟩
  · rw [h]
  · rw [h]
    dsimp only
    rw [Text.abbreviates_of_upper ht hlen, Bool.not_true, Bool.and_false]

/-- What `END` closes where a block or routine is the innermost scope. -/
theorem endBlock?_cons {n : Nesting} {o : OpenScope} {around : List OpenScope}
    (h : n.scopes = o :: around) (ho : o.scope.isBlockLike = true) :
    n.endBlock? = some (o.scope, ⟨around⟩) := by
  have hc : o.scope.isConditional = false := by
    cases hs : o.scope with
    | conditional opener active taken => rw [hs] at ho; cases ho
    | file item => rfl
    | routine item kind keyword opener => rfl
    | suspended item opener => rfl
    | block opener keyword label => rfl
  unfold Nesting.endBlock? Nesting.innermost?
  rw [h, Nesting.splitScopes, hc]
  show (if o.scope.isBlockLike then _ else _) = _
  rw [if_pos ho]
  rfl

/-- `END` of the innermost scope, whose keyword it names if it names any. -/
theorem endBlock_eq {o : OpenScope} {around : List OpenScope}
    (hscopes : s.nesting.scopes = o :: around)
    (ho : o.scope.isBlockLike = true) {t : Token} {ts : List Token}
    (hts : st.parts.map (·.token) = t :: ts)
    (hm : State.isMismatched st (State.endedBy o.scope).1 = false) :
    s.endBlock st
      = State.changing { s with nesting := ⟨around⟩ } (State.endedBy o.scope).2
          (fun i => { i with endLine := some (s.rootLine t) }) State.done := by
  unfold State.endBlock State.reading
  rw [opening_eq hts, endBlock?_cons hscopes ho]
  dsimp only
  rw [hm]
  rfl

/-- `END` of a block without a label. -/
theorem endOfBlock_view (hs : s.view.trigger = none)
    (hl : s.view.label = none) (hst : st.trigger = none)
    (hk : st.kind = .close) {opener t : Token} {keyword : String} {line : Nat}
    {around : List OpenScope} {ts : List Token}
    (hscopes : s.view.scopes = ⟨.block opener keyword none, line⟩ :: around)
    (hts : st.parts.map (·.token) = t :: ts)
    (hm : State.isMismatched st keyword = false) :
    (s.endStatement env st stop).state.view = { s.view with scopes := around }
      ∧ (s.endStatement env st stop).state.source = s.source := by
  have hend := endBlock_eq hscopes rfl hts hm
  have hkind : s.endByKind env st (stop.text == ":")
      = (s.endBlock st, false) := by
    unfold State.endByKind
    rw [hk]
  have hview := endStatement_view env stop hs hst hkind
  rw [hend] at hview
  refine ⟨?_, hview.2⟩
  rw [hview.1]
  exact View.ext rfl rfl rfl rfl rfl rfl hs.symm hl.symm rfl

/-- `END` of a procedure. -/
theorem endOfProcedure_view (hsound : Sound s) (hs : s.view.trigger = none)
    (hl : s.view.label = none) (hst : st.trigger = none)
    (hk : st.kind = .close) {opener t : Token} {keyword : String} {line : Nat}
    {id : ItemId} {around : List OpenScope} {ts : List Token}
    (hscopes : s.view.scopes
      = ⟨.routine id .procedure keyword opener, line⟩ :: around)
    (hts : st.parts.map (·.token) = t :: ts)
    (hm : State.isMismatched st keyword = false) :
    (s.endStatement env st stop).state.view
        = { s.view with
            scopes := around
            found := s.view.found.map fun e =>
              if e.id = id then { e with endLine := some (s.rootLine t) }
              else e }
      ∧ (s.endStatement env st stop).state.source = s.source := by
  have hfits := hsound.scopes ⟨.routine id .procedure keyword opener, line⟩
    (by
      show _ ∈ s.view.scopes
      rw [hscopes]
      exact List.mem_cons_self)
  obtain ⟨item, hitem, -⟩ := hfits
  obtain ⟨hlt, -⟩ := Array.getElem?_eq_some_iff.1 hitem
  have hend := endBlock_eq hscopes rfl hts hm
  have hchange : s.endBlock st = State.done
      { s with
        nesting := ⟨around⟩
        findings := { s.findings with
          items := s.findings.items.modify id fun i =>
            { i with endLine := some (s.rootLine t) } } } := by
    rw [hend]
    show State.changing _ (some id) _ _ = _
    unfold State.changing State.changeItem?
    dsimp only
    rw [if_pos hlt]
  have hkind : s.endByKind env st (stop.text == ":")
      = (s.endBlock st, false) := by
    unfold State.endByKind
    rw [hk]
  have hview := endStatement_view env stop hs hst hkind
  rw [hchange] at hview
  refine ⟨?_, hview.2⟩
  rw [hview.1]
  exact View.ext rfl rfl (procedureEntries_endLine hsound.forest id _) rfl rfl
    rfl hs.symm hl.symm rfl

end AblOutline.Parse
