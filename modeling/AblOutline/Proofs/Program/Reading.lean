/-
How a program is read, construct by construct. A state that is `Ready` has
what is followed of it (`View`), and the tokens that it has still to read; each
construct leads to a state that is ready to read what comes after it.
-/
import AblOutline.Proofs.Program.Endings
import AblOutline.Proofs.Program.Grammar

namespace AblOutline.Parse

-- ================================================================= ready

/-- All branches are taken. -/
def View.Active (v : View) : Prop := Nesting.inFalseBranch ⟨v.scopes⟩ = false

/-- They are so when the innermost scope is closed, too. -/
theorem View.Active.around {v : View} (h : v.Active) {o : OpenScope}
    {around : List OpenScope} (hs : v.scopes = o :: around) :
    Nesting.inFalseBranch ⟨around⟩ = false := by
  have hall : (o :: around).any (!·.scope.isActive) = false := hs ▸ h
  rw [List.any_cons, Bool.or_eq_false_iff] at hall
  exact hall.2

/-- No statement is being read. -/
structure View.Calm (v : View) : Prop where
  skip : v.skip = 0
  kind : v.kind = .other
  tokens : v.tokens = []
  trigger : v.trigger = none
  label : v.label = none
  restart : v.restart = false

/-- The state has still to read `ahead`, where nothing is to be expanded. -/
structure Ready (s : State) (v : View) (ts : List Token) : Prop
    extends Facing s ts where
  owned : ∀ t ∈ ts, t.owner = 0
  active : v.Active
  view : s.view = v

/-- `s` leads to a state that has still to read `ts`. -/
def Reaches (env : Environment) (s : State) (v : View) (ts : List Token) :
    Prop :=
  ∃ s', Leads env s s' ∧ Ready s' v ts

section Steps

variable {env : Environment} {s u : State} {v : View} {t : Token}
  {ts more : List Token}

theorem Ready.reaches (h : Ready s v ts) : Reaches env s v ts :=
  ⟨s, .refl s, h⟩

theorem Reaches.trans {v' : View} {rest : List Token}
    (h : Reaches env s v ts)
    (h' : ∀ s', Ready s' v ts → Reaches env s' v' rest) :
    Reaches env s v' rest := by
  obtain ⟨s', hl, hr⟩ := h
  obtain ⟨s'', hl', hr'⟩ := h' s' hr
  exact ⟨s'', hl.trans hl', hr'⟩

theorem Reaches.after {s' : State} (hl : Leads env s s')
    (h : Reaches env s' v ts) : Reaches env s v ts := by
  obtain ⟨s'', hl', hr⟩ := h
  exact ⟨s'', hl.trans hl', hr⟩

variable (env)

/-- A token that is looked at. -/
theorem Ready.look (h : Ready s v (t :: more)) (hskip : v.skip = 0)
    (ht : t.isEof = false)
    (hlook : ∀ k, more.length < k → ∃ o,
      ((s.moved t more).observe t false).2.look env k t
          ((s.moved t more).observe t false).1 = some o ∧ o.state = u)
    (hcursor : u.source.cursor = (s.moved t more).source.cursor)
    (hactive : u.view.Active) : Reaches env s u.view more := by
  have hzero : s.source.skip = 0 := by
    rw [← hskip, ← h.view]
    rfl
  obtain ⟨n, hl, hfacing⟩ := h.toFacing.look hzero ht hlook hcursor
  exact ⟨u.expandedTo n, hl, hfacing,
    fun x hx => h.owned x (List.mem_cons_of_mem _ hx), hactive, rfl⟩

/-- A token on a taken branch is looked at for what it is. -/
theorem look_taken {k : Nat} {ended : Option Statement} (hs : Sound u)
    (ha : u.view.Active) (hk : t.kind ≠ .directive) :
    u.look env k t ended
      = match t.kind, ended with
        | .blank, _ | .comment, _ | .eol, _ => some u.space.done
        | .eos, some statement => some (u.space.endStatement env statement t)
        | .eos, none => some u.space.done
        | .inclusion, _ | .reference, _ | .eof, _ => some u.done
        | _, _ => some (u.readToken env t).done := by
  have hactive : u.inFalseBranch = false := ha
  unfold State.look
  rw [if_neg hs.depth_ne_zero]
  cases hkind : t.kind with
  | directive => exact absurd hkind hk
  | eos => cases ended <;> simp [hactive]
  | _ => simp [hactive]

/-- White space, a line break or a comment. -/
theorem Ready.trivia (h : Ready s v (t :: more)) (hskip : v.skip = 0)
    (ht : t.kind.isTrivia = true) : Reaches env s v more := by
  obtain ⟨w, hw, hsource, hview, hsound⟩ : ∃ w,
      (s.moved t more).observe t false = (none, w)
        ∧ w.source = (s.moved t more).source ∧ w.view = v ∧ Sound w := by
    refine ⟨((s.moved t more).observe t false).2, ?_, ?_, ?_,
      (observe_keeps _ t false).sound h.moved⟩
    all_goals
      unfold State.observe
      cases hk : t.kind <;> rw [hk] at ht <;>
        first | rfl | exact h.view | cases ht
  have hactive : w.view.Active := hview ▸ h.active
  have hlook := h.look env (u := w.space) hskip ?_ ?_ ?_ ?_
  · have hsame : w.space.view = v := hview
    rw [hsame] at hlook
    exact hlook
  · unfold Token.isEof
    cases hk : t.kind <;> rw [hk] at ht <;> first | rfl | cases ht
  · intro k _
    refine ⟨w.space.done, ?_, rfl⟩
    have hne : t.kind ≠ .directive := by
      intro hk
      rw [hk] at ht
      cases ht
    rw [hw, look_taken env hsound hactive hne]
    cases hk : t.kind <;> rw [hk] at ht <;> first | rfl | cases ht
  · show w.source.cursor = _
    rw [hsource]
  · exact hactive

/-- A token that is passed over. -/
theorem Ready.pass (h : Ready s v (t :: more)) {n : Nat}
    (hskip : v.skip = n + 1) (ht : t.isEof = false) :
    Reaches env s { v with skip := n } more := by
  have hn : s.source.skip = n + 1 := by
    rw [← hskip, ← h.view]
    rfl
  obtain ⟨m, hl, hfacing⟩ := h.toFacing.pass hn ht rfl
  have hview : ((s.moved t more).observe t true).2.view = v := by
    unfold State.observe
    cases t.kind <;> exact h.view
  refine ⟨_, hl, hfacing, fun x hx => h.owned x (List.mem_cons_of_mem _ hx),
    h.active, ?_⟩
  rw [← hview]
  rfl

/-- The token may stand within a statement. -/
structure IsTame (t : Token) : Prop where
  kind : t.kind ≠ .eos ∧ t.kind ≠ .directive ∧ t.kind ≠ .eof
  plain : IsPlain t
  word : t.kind = .word → Keyword.isIn t.text Keyword.restarts = false

/-- A token that is read into the statement. -/
theorem Ready.read (h : Ready s v (t :: more)) (hskip : v.skip = 0)
    (ht : IsTame t) (hk : t.kind.isTrivia = false)
    (hsource : ((s.moved t more).readToken env t).source
      = (s.moved t more).source)
    (hactive : ((s.moved t more).readToken env t).view.Active) :
    Reaches env s ((s.moved t more).readToken env t).view more := by
  obtain ⟨⟨heos, hdir, heof⟩, ⟨href, hinc⟩, -⟩ := ht
  have htaken : (s.moved t more).view.Active := by
    have hview : (s.moved t more).view = v := h.view
    exact hview ▸ h.active
  refine h.look env hskip (beq_false_of_ne heof) (fun k _ => ?_) ?_ hactive
  · have hobserve : (s.moved t more).observe t false
        = (none, s.moved t more) := by
      unfold State.observe
      cases hkind : t.kind with
      | eol => rw [hkind] at hk; cases hk
      | eos => exact absurd hkind heos
      | _ => rfl
    refine ⟨((s.moved t more).readToken env t).done, ?_, rfl⟩
    rw [hobserve]
    dsimp only
    rw [look_taken env h.moved htaken hdir]
    cases hkind : t.kind with
    | blank => rw [hkind] at hk; cases hk
    | comment => rw [hkind] at hk; cases hk
    | eol => rw [hkind] at hk; cases hk
    | eos => exact absurd hkind heos
    | directive => exact absurd hkind hdir
    | reference => exact absurd hkind href
    | inclusion => exact absurd hkind hinc
    | eof => exact absurd hkind heof
    | _ => rfl
  · rw [hsource]

/-- The first word of a statement. -/
theorem Ready.first (h : Ready s v (t :: more)) (hv : v.Calm)
    (hk : t.kind = .word)
    (hw : Keyword.isIn t.text Keyword.restarts = false) :
    Reaches env s { v with kind := StatementKind.ofWord t.text, tokens := [t] }
      more := by
  have hview : (s.moved t more).view = v := h.view
  obtain ⟨hread, hsource⟩ := readToken_first env (s.moved t more) t hk hw
    (hview ▸ hv.tokens)
  have hsame : ((s.moved t more).readToken env t).view
      = { v with kind := StatementKind.ofWord t.text, tokens := [t] } := by
    rw [hread, hview, ← hv.trigger, ← hv.restart]
  have htame : IsTame t := by
    refine ⟨?_, ?_, fun _ => hw⟩
    · rw [hk]
      exact ⟨nofun, nofun, nofun⟩
    · unfold IsPlain
      rw [hk]
      exact ⟨nofun, nofun⟩
  rw [← hsame]
  refine h.read env hv.skip htame (by rw [hk]; rfl) hsource ?_
  rw [hsame]
  exact h.active

/-- A further token of a statement. -/
theorem Ready.further (h : Ready s v (t :: more)) (hskip : v.skip = 0)
    (htokens : v.tokens ≠ []) (hrestart : v.restart = false)
    (hon : v.kind ≠ .on) (ht : IsTame t) (hk : t.kind.isTrivia = false) :
    Reaches env s { v with tokens := v.tokens ++ [t] } more := by
  have hview : (s.moved t more).view = v := h.view
  obtain ⟨hread, hsource⟩ := readToken_more env (s.moved t more) t ht.word
    (hview ▸ htokens) (hview ▸ hrestart) (hview ▸ hon)
  rw [hview] at hread
  rw [← hread]
  refine h.read env hskip ht hk hsource ?_
  rw [hread]
  exact h.active

/-- What is taken where a statement ends on a taken branch. -/
theorem stopStatement_taken (hs : u.view.tokens ≠ [])
    (ha : u.view.Active) :
    u.stopStatement = (some u.analysis.statement,
      { u with analysis := { u.analysis with
          statement := {}, restart := false } }) := by
  have hactive : u.inFalseBranch = false := ha
  have hempty : u.analysis.statement.isEmpty = false := by
    unfold Statement.isEmpty
    cases hp : u.analysis.statement.parts with
    | nil => exact absurd (congrArg (List.map _) hp) hs
    | cons p parts => rfl
  have hboth : (u.takeStatement.1.isEmpty
      || ({ u.takeStatement.2 with analysis :=
        { u.takeStatement.2.analysis with restart := false } }
        : State).inFalseBranch) = false := by
    show (u.analysis.statement.isEmpty || u.inFalseBranch) = false
    rw [hempty, hactive]
    rfl
  unfold State.stopStatement
  dsimp only
  rw [hboth, if_neg Bool.false_ne_true]
  rfl

/-- The end of a statement, at which a statement `st` ends in a state `u`. -/
theorem Ready.stop (h : Ready s v (t :: more)) (hskip : v.skip = 0)
    (htokens : v.tokens ≠ []) (hk : t.kind = .eos) :
    ∃ u st, Sound u
      ∧ u.view = { v with
          kind := .other, tokens := [], trigger := none, restart := false }
      ∧ st.kind = v.kind ∧ st.parts.map (·.token) = v.tokens
      ∧ st.trigger = v.trigger
      ∧ ∀ v', (u.endStatement env st t).state.view = v'
        ∧ (u.endStatement env st t).state.source = u.source →
        v'.Active → Reaches env s v' more := by
  have hview : (s.moved t more).view = v := h.view
  have htaken : (s.moved t more).view.Active := hview ▸ h.active
  have hobserve : (s.moved t more).observe t false
      = (some s.analysis.statement,
        { s.moved t more with analysis := { s.analysis with
            statement := {}, restart := false } }) := by
    unfold State.observe
    rw [hk]
    exact stopStatement_taken (hview ▸ htokens) htaken
  have hsound := (observe_keeps (s.moved t more) t false).sound h.moved
  rw [hobserve] at hsound
  refine ⟨State.space { s.moved t more with analysis := { s.analysis with
      statement := {}, restart := false } }, s.analysis.statement,
    (space_keeps _).sound hsound, ?_, ?_, ?_, ?_, ?_⟩
  · rw [← hview]
    rfl
  · rw [← hview]
    rfl
  · rw [← hview]
    rfl
  · rw [← hview]
    rfl
  · rintro v' ⟨rfl, hsource⟩ hactive
    refine h.look env hskip ?_ ?_ ?_ hactive
    · unfold Token.isEof
      rw [hk]
      rfl
    · intro k _
      refine ⟨_, ?_, rfl⟩
      rw [hobserve]
      dsimp only
      rw [look_taken env hsound htaken (by rw [hk]; nofun), hk]
    · rw [hsource]
      rfl

end Steps

end AblOutline.Parse
