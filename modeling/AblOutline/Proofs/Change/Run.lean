/-
The invariant over a whole parse. It holds when the file is opened; a token
that is no directive of branches changes the state in the ways of `Change`;
those directives open, turn or close an `&IF`, which refers to no item. So it
holds after every step of a run (`Sound.run`), and after the end of the
tokens (`Sound.parse`).
-/
import AblOutline.Parse.Run
import AblOutline.Proofs.Change.Directives
import AblOutline.Proofs.Change.Statements

namespace AblOutline.Parse

variable {env : Environment} {steps : Nat} {s s' : State} {t : Token}

-- ============================================================== branches

section Branches

variable {within around : List OpenScope} {o : OpenScope}

theorem isConditional_kind {scope : Scope}
    (h : scope.isConditional = true) : scope.kind = .conditional := by
  cases scope with
  | conditional opener active taken => rfl
  | file item => cases h
  | routine item kind keyword opener => cases h
  | suspended item opener => cases h
  | block opener keyword label => cases h

/-- Other open scopes that fit. -/
theorem Sound.with_nesting (h : Sound s) {n : Nesting}
    (hs : ∀ o ∈ n.scopes, o.scope.isConditional = true ∨ o ∈ s.nesting.scopes)
    (hf : FileOpen n.scopes) : Sound { s with nesting := n } := by
  refine ⟨h.forest, fun o ho => ?_, hf, h.analysis⟩
  rcases hs o ho with hc | hmem
  · -- an `&IF` refers to no item
    obtain ⟨scope, line⟩ := o
    cases scope with
    | conditional opener active taken => trivial
    | file item => cases hc
    | routine item kind keyword opener => cases hc
    | suspended item opener => cases hc
    | block opener keyword label => cases hc
  · exact h.scopes o hmem

theorem Sound.openIf (h : Sound s) (opener : Token) (line : Nat)
    (taken : Bool) :
    Sound { s with nesting := s.nesting.openIf opener line taken } := by
  refine h.with_nesting (fun o ho => ?_) (h.file.cons nofun)
  rcases List.mem_cons.1 ho with rfl | ho
  · exact Or.inl rfl
  · exact Or.inr ho

/-- The innermost `&IF`, with the scopes within and around it. -/
theorem innermost_isConditional
    (hi : s.nesting.innermost? Scope.isConditional
      = some (within, o, around)) :
    s.nesting.scopes = within ++ o :: around ∧ o.scope.kind = .conditional := by
  obtain ⟨he, hc⟩ := Nesting.splitScopes_eq_some hi
  exact ⟨he, isConditional_kind hc⟩

theorem Sound.turn (h : Sound s) (active spent : Bool) :
    Sound { s with nesting := s.nesting.turn active spent } := by
  unfold Nesting.turn
  split
  · rename_i within o around hi
    obtain ⟨he, hk⟩ := innermost_isConditional hi
    have hfile : FileOpen (within ++ o :: around) := he ▸ h.file
    obtain ⟨haround, hwithin⟩ := hfile.parts (by rw [hk]; nofun)
    have hturned : (Nesting.turned active spent o.scope).isConditional
        = true := by
      obtain ⟨-, hc⟩ := Nesting.splitScopes_eq_some hi
      cases hs : o.scope with
      | conditional opener active' taken => rfl
      | file item => rw [hs] at hc; cases hc
      | routine item kind keyword opener => rw [hs] at hc; cases hc
      | suspended item opener => rw [hs] at hc; cases hc
      | block opener keyword label => rw [hs] at hc; cases hc
    refine h.with_nesting (fun x hx => ?_) ?_
    · rw [he]
      rcases List.mem_append.1 hx with hx | hx
      · exact Or.inr (List.mem_append_left _ hx)
      · rcases List.mem_cons.1 hx with rfl | hx
        · exact Or.inl hturned
        · exact Or.inr (List.mem_append_right _ (List.mem_cons_of_mem _ hx))
    · refine FileOpen.append (haround.cons ?_) hwithin
      show (Nesting.turned active spent o.scope).kind ≠ .file
      rw [isConditional_kind hturned]
      nofun
  · exact h

theorem Sound.endIf (h : Sound s) {n : Nesting}
    (hn : s.nesting.endIf? = some n) : Sound { s with nesting := n } := by
  obtain ⟨⟨within, o, around⟩, hi, rfl⟩ := Option.map_eq_some_iff.1 hn
  obtain ⟨he, hk⟩ := innermost_isConditional hi
  have hfile : FileOpen (within ++ o :: around) := he ▸ h.file
  refine h.with_nesting (fun x hx => Or.inr ?_)
    (hfile.remove (by rw [hk]; nofun))
  rw [he]
  rcases List.mem_append.1 hx with hx | hx
  · exact List.mem_append_left _ hx
  · exact List.mem_append_right _ (List.mem_cons_of_mem _ hx)

end Branches

/-- A directive of branches keeps the invariant. -/
theorem Sound.directive_branch (h : Sound s) {o : Outcome}
    (hd : s.directive env steps t = some o)
    (hb : isBranch (.ofWord t.text) = true) : Sound o.state := by
  unfold State.directive at hd
  dsimp only at hd
  cases hw : Preprocess.Directive.ofWord t.text with
  | ifThen =>
      rw [hw] at hd
      obtain ⟨s', hs', rfl⟩ := Option.map_eq_some_iff.1 hd
      obtain ⟨⟨u, condition⟩, hu, he⟩ := Option.bind_eq_some_iff.1 hs'
      cases he
      exact ((takeCondition_keeps env hu).sound h).openIf ..
  | elseIf =>
      rw [hw] at hd
      obtain ⟨s', hs', rfl⟩ := Option.map_eq_some_iff.1 hd
      unfold State.elseIf at hs'
      split at hs'
      · obtain ⟨⟨u, condition⟩, hu, rfl⟩ := Option.map_eq_some_iff.1 hs'
        exact ((takeCondition_keeps env hu).trans (.faulted u _ _)).sound h
      · obtain ⟨⟨u, condition⟩, hu, he⟩ := Option.bind_eq_some_iff.1 hs'
        cases he
        exact ((takeCondition_keeps env hu).sound h).turn ..
  | otherwise =>
      rw [hw] at hd
      cases hd
      show Sound (s.otherwise t)
      unfold State.otherwise
      split
      · exact (Keeps.faulted s _ _).sound h
      · exact h.turn ..
  | endIf =>
      rw [hw] at hd
      cases hd
      show Sound (s.endIf t)
      unfold State.endIf
      split
      · exact (Keeps.faulted s _ _).sound h
      · rename_i n hn
        exact h.endIf hn
  | thenPart => rw [hw] at hb; cases hb
  | globalDefine => rw [hw] at hb; cases hb
  | scopedDefine => rw [hw] at hb; cases hb
  | undefine => rw [hw] at hb; cases hb
  | analyzeSuspend => rw [hw] at hb; cases hb
  | analyzeResume => rw [hw] at hb; cases hb
  | message => rw [hw] at hb; cases hb
  | other => rw [hw] at hb; cases hb

-- ================================================================== step

/-- A token that opens, turns or closes an `&IF` where it is looked at. -/
def isBranchToken (t : Token) : Bool :=
  t.kind == .directive && isBranch (.ofWord t.text)

theorem takeStatement_keeps (s : State) : Keeps s s.takeStatement.2 :=
  .one fun hs => .noted s _
    ⟨nofun, hs.analysis.label, hs.analysis.prototype,
      hs.analysis.implementation⟩

theorem stopStatement_keeps (s : State) : Keeps s s.stopStatement.2 := by
  have hrestart : Keeps s.takeStatement.2 { s.takeStatement.2 with analysis :=
      { s.takeStatement.2.analysis with restart := false } } :=
    .noted _ _ rfl rfl rfl
  unfold State.stopStatement
  dsimp only
  split
  · exact (takeStatement_keeps s).trans hrestart
  · exact (takeStatement_keeps s).trans hrestart

theorem observe_keeps (s : State) (t : Token) (skipped : Bool) :
    Keeps s (s.observe t skipped).2 := by
  unfold State.observe
  split
  · exact .one fun _ => .lineEnded s _
  · split
    · exact .refl s
    · exact stopStatement_keeps s
  · exact .refl s

/-- A statement that ends is the one that was read. -/
theorem observe_ended {skipped : Bool} {ended : Statement}
    (h : (s.observe t skipped).1 = some ended) :
    ended = s.analysis.statement := by
  unfold State.observe at h
  split at h
  · cases h
  · split at h
    · cases h
    · unfold State.stopStatement at h
      dsimp only at h
      split at h
      · cases h
      · exact (Option.some.inj h).symm
  · cases h

theorem space_keeps (s : State) : Keeps s s.space := .noted s _ rfl rfl rfl

/-- A token is looked at by changes alone, but for the directives of
branches. -/
theorem look_keeps {ended : Option Statement} {o : Outcome}
    (hl : s.look env steps t ended = some o) (hb : isBranchToken t = false)
    (he : Sound s → ∀ e, ended = some e → ∀ id, e.trigger = some id →
      IsA s.findings.items id "on") : Keeps s o.state := by
  unfold State.look at hl
  split at hl
  · cases hl
    exact .refl s
  · split at hl
    · rename_i hk
      refine directive_keeps hl ?_
      unfold isBranchToken at hb
      rw [hk] at hb
      exact hb
    · split at hl
      · cases hl
        exact .refl s
      · split at hl
        · cases hl
          exact space_keeps s
        · cases hl
          exact space_keeps s
        · cases hl
          exact space_keeps s
        · split at hl
          · rename_i e
            cases hl
            exact (space_keeps s).trans (endStatement_keeps env _ e t
              fun hs => he ⟨hs.forest, hs.scopes, hs.file,
                ⟨hs.analysis.trigger, hs.analysis.label,
                  hs.analysis.prototype, hs.analysis.implementation⟩⟩ e rfl)
          · cases hl
            exact space_keeps s
        · cases hl
          exact .refl s
        · cases hl
          exact .refl s
        · cases hl
          exact .refl s
        · cases hl
          exact readToken_keeps env s t

theorem expandNext_keeps (env : Environment) (s : State) :
    Keeps s (s.expandNext env) := by
  unfold State.expandNext
  split
  · exact expandAt_keeps env s .nearest true
  · exact .refl s

/-- One step: a skipped token, or one that is looked at after it was
observed. -/
theorem step_cases (h : s.step env steps t = some s') :
    (0 < s.source.skip ∧ ∃ u, u = (s.observe t true).2
        ∧ s' = State.expandNext env
          { u with source := { u.source with skip := u.source.skip - 1 } })
      ∨ (s.source.skip = 0 ∧ ∃ o,
        (s.observe t false).2.look env steps t (s.observe t false).1 = some o
          ∧ s' = o.state.expandNext env) := by
  unfold State.step at h
  by_cases hk : 0 < s.source.skip
  · left
    simp only [hk, decide_true, if_true] at h
    exact ⟨hk, _, rfl, (Option.some.inj h).symm⟩
  · right
    simp only [hk, decide_false, Bool.false_eq_true, if_false] at h
    obtain ⟨o, ho, he⟩ := Option.bind_eq_some_iff.1 h
    exact ⟨Nat.eq_zero_of_not_pos hk, o, ho, (Option.some.inj he).symm⟩

/-- The statement that a token ends refers to a trigger that is there. -/
theorem observe_trigger {skipped : Bool} (hs : Sound s) {ended : Statement}
    (he : (s.observe t skipped).1 = some ended) {id : ItemId}
    (hid : ended.trigger = some id) :
    IsA (s.observe t skipped).2.findings.items id "on" := by
  rw [observe_ended he] at hid
  exact (observe_keeps s t skipped).extends hs (hs.analysis.trigger hid)

/-- A step on a token that is passed over, or on one that is no directive of
branches, is made of changes. -/
theorem step_keeps (h : s.step env steps t = some s')
    (hb : 0 < s.source.skip ∨ isBranchToken t = false) : Keeps s s' := by
  intro hs
  rcases step_cases h with ⟨-, u, rfl, rfl⟩ | ⟨hskip, o, hl, rfl⟩
  · exact ((observe_keeps s t true).trans
      ((Keeps.read _ _).trans (expandNext_keeps env _))) hs
  · have hbranch : isBranchToken t = false := by
      rcases hb with hlt | hb
      · rw [hskip] at hlt
        exact absurd hlt (Nat.lt_irrefl 0)
      · exact hb
    have hlook := look_keeps hl hbranch fun _ e he id hid =>
      observe_trigger hs he hid
    exact ((observe_keeps s t false).trans
      (hlook.trans (expandNext_keeps env _))) hs

/-- Every step keeps the invariant. -/
theorem Sound.step (hs : Sound s) (h : s.step env steps t = some s') :
    Sound s' := by
  by_cases hb : 0 < s.source.skip ∨ isBranchToken t = false
  · exact (step_keeps h hb).sound hs
  · rcases step_cases h with ⟨hk, -⟩ | ⟨-, o, hl, rfl⟩
    · exact absurd (Or.inl hk) hb
    · have hbranch : isBranchToken t = true := by
        cases hc : isBranchToken t with
        | true => rfl
        | false => exact absurd (Or.inr hc) hb
      unfold isBranchToken at hbranch
      obtain ⟨hkind, hword⟩ := Bool.and_eq_true_iff.1 hbranch
      have hu := (observe_keeps s t false).sound hs
      refine (expandNext_keeps env _).sound ?_
      unfold State.look at hl
      split at hl
      · cases hl
        exact hu
      · rw [eq_of_beq hkind] at hl
        exact hu.directive_branch hl hword

theorem advance_keeps (h : s.advance? = some s') : Keeps s s' := by
  obtain ⟨cursor, -, rfl⟩ := Option.map_eq_some_iff.1 h
  exact .read s _

theorem run_stop (h : s.advance? = none) :
    s.run env (steps + 1) = some s := by
  unfold State.run
  rw [h]

theorem run_eof {u : State} (h : s.advance? = some u)
    (heof : u.source.cursor.current.isEof = true) :
    s.run env (steps + 1) = some u := by
  unfold State.run
  rw [h]
  exact if_pos heof

theorem run_next {u : State} (h : s.advance? = some u)
    (heof : u.source.cursor.current.isEof = false) :
    s.run env (steps + 1)
      = (u.step env steps u.source.cursor.current).bind
          (State.run env steps) := by
  conv => lhs; unfold State.run
  rw [h]
  dsimp only
  rw [heof]
  refine (if_neg Bool.false_ne_true).trans ?_
  cases u.step env steps u.source.cursor.current <;> rfl

/-- A run keeps the invariant. -/
theorem Sound.run {env : Environment} {steps : Nat} {s s' : State}
    (hs : Sound s) (h : s.run env steps = some s') : Sound s' := by
  induction steps generalizing s with
  | zero => cases h
  | succ steps ih =>
      unfold State.run at h
      split at h
      · cases h
        exact hs
      · rename_i u hu
        have hsound := (advance_keeps hu).sound hs
        dsimp only at h
        split at h
        · cases h
          exact hsound
        · split at h
          · cases h
          · rename_i v hv
            exact ih (hsound.step hv) h

/-- The file is open, so there is a scope. -/
theorem Sound.depth_ne_zero (h : Sound s) : s.nesting.depth ≠ 0 := by
  obtain ⟨inner, line, he, -⟩ := h.file
  unfold Nesting.depth
  rw [he, List.length_append, List.length_singleton]
  exact Nat.succ_ne_zero _

-- ========================================================= start and end

/-- The file is open and nothing else is there. -/
theorem Sound.opened (cache : TokenCache) (text : String)
    (path : Option String) : Sound (.opened cache text path) := by
  refine ⟨?_, ?_, ⟨[], 0, rfl, nofun⟩, ⟨nofun, nofun, nofun, nofun⟩⟩
  · exact forest_singleton rfl rfl rfl rfl
  · intro o ho
    rcases List.mem_singleton.1 ho with rfl
    rfl

theorem Sound.start (env : Environment) (cache : TokenCache) (text : String)
    (path : Option String) : Sound (.start env cache text path) := by
  unfold State.start
  exact ((expandAt_keeps env _ .nearest true).trans
    (expandAt_keeps env _ _ true)).sound (.opened cache text path)

theorem endLast_keeps (env : Environment) (s : State) (eof : Token) :
    Keeps s (s.endLast env eof) := by
  have htake := takeStatement_keeps s
  unfold State.endLast
  dsimp only
  split
  · exact htake
  · intro hs
    exact (htake.trans (endStatement_keeps env _ _ eof fun _ id hid =>
      htake.extends hs (hs.analysis.trigger hid))) hs

theorem leave_keeps (line : Nat) (s : State) (o : OpenScope) (depth : Nat) :
    Keeps s (s.leave line o depth) := by
  unfold State.leave
  split
  · rename_i item _
    unfold State.setEndLine?
    cases hc : s.changeItem? item fun i => { i with endLine := some line } with
    | none => exact .refl s
    | some s' => exact .changed (rewrites_endLine line) hc
  · split
    · exact .one fun _ => .faulted s _ _ _ _
    · exact .refl s

theorem leaveAll_keeps (line : Nat) (s : State) (scopes : List OpenScope) :
    Keeps s (s.leaveAll line scopes) := by
  induction scopes generalizing s with
  | nil => exact .refl s
  | cons o around ih => exact (leave_keeps line s o _).trans (ih _)

theorem leave_nesting (line : Nat) (s : State) (o : OpenScope) (depth : Nat) :
    (s.leave line o depth).nesting = s.nesting := by
  unfold State.leave
  split
  · unfold State.setEndLine? State.changeItem?
    split <;> rfl
  · split <;> rfl

theorem leaveAll_nesting (line : Nat) (s : State) (scopes : List OpenScope) :
    (s.leaveAll line scopes).nesting = s.nesting := by
  induction scopes generalizing s with
  | nil => rfl
  | cons o around ih =>
      unfold State.leaveAll
      rw [ih, leave_nesting]

theorem finish_keeps (env : Environment) (s : State) :
    Keeps s (s.finish env) := by
  have hline : Keeps s (s.recordLine (s.rootLine s.source.cursor.current)) :=
    .one fun _ => .lineEnded s _
  unfold State.finish
  dsimp only
  exact hline.trans ((endLast_keeps env _ _).trans (leaveAll_keeps _ _ _))

/-- The state that a parse ends in satisfies the invariant. -/
theorem Sound.parse {cache : TokenCache} {text : String}
    {path : Option String} {r : Result}
    (h : parse? steps env cache text path = some r) :
    ∃ s, Sound s ∧ r = .ofState env.options s := by
  obtain ⟨s, hs, rfl⟩ := Option.map_eq_some_iff.1 h
  have hrun := (Sound.start env cache text path).run hs
  exact ⟨_, (finish_keeps env s).sound hrun, rfl⟩

end AblOutline.Parse
