/-
The branches of a parse. What a parse has read is told as a history: the
directives of branches that were looked at, with any tokens read in between
that open and close routines, blocks and sections, or that are passed over.
The chains that those directives make, read off the history alone, say which
branches are taken (`Chains.ofEvents`); the open scopes follow them, however
the directives and the other scopes are interleaved.

A condition counts only where it may decide a branch. Elsewhere it is passed
over token by token, and nothing in it is expanded: while a branch is not
taken, the source stays as it was but for the number of tokens to pass
(`FollowsChains.unread`).
-/
import AblOutline.Proofs.Chains
import AblOutline.Proofs.Change.Run
import AblOutline.Proofs.ReadingOn

namespace AblOutline.Parse

open Preprocess

-- ============================================================== histories

/-- What a directive of branches is to the chains, its condition given. -/
def eventOf? (t : Token) (holds : Bool) : Option BranchEvent :=
  match Directive.ofWord t.text with
  | .ifThen => some (.ifThen holds)
  | .elseIf => some (.elseIf holds)
  | .otherwise => some .otherwise
  | .endIf => some .endIf
  | _ => none

/-- The condition that follows the current token, evaluated where it
stands. -/
def State.condition? (env : Environment) (steps : Nat) (s : State)
    (t : Token) : Option Bool :=
  (s.takeCondition env steps true).map fun (s, o) => s.holds env o t.owner

/-- The directives of branches that a parse has looked at on its way to a
state. -/
inductive History (env : Environment) : List BranchEvent → State → Prop where
  | start (cache : TokenCache) (text : String) (path : Option String) :
      History env [] (.start env cache text path)
  /-- The source moves on. It may be any other, so anything may come next. -/
  | read {es : List BranchEvent} {s : State} (h : History env es s)
      (source : Source) : History env es { s with source }
  /-- A token that is passed over, or that is no directive of branches. -/
  | other {es : List BranchEvent} {s s' : State} {steps : Nat} {t : Token}
      (h : History env es s) (hs : s.step env steps t = some s')
      (hb : 0 < s.source.skip ∨ isBranchToken t = false) : History env es s'
  /-- A directive of branches; its condition is told as it is where it
  stands. -/
  | branch {es : List BranchEvent} {s s' : State} {steps : Nat} {t : Token}
      {e : BranchEvent} (h : History env es s)
      (hs : s.step env steps t = some s') (hskip : s.source.skip = 0)
      (hk : t.kind = .directive) (holds : Bool)
      (hc : ∀ b, s.condition? env steps t = some b → holds = b)
      (he : eventOf? t holds = some e) : History env (es ++ [e]) s'

/-- The condition of the directive `t` decides a branch: all branches around
are taken, and no branch of its own `&IF` was. -/
def decides (t : Token) (cs : Chains) : Bool :=
  match Directive.ofWord t.text, cs with
  | .ifThen, cs => cs.allActive
  | .elseIf, c :: _ => c.mayTurn
  | _, _ => false

/-- The directive `t` wants an `&IF` that is open. -/
def wantsChain (t : Token) : Bool :=
  match Directive.ofWord t.text with
  | .elseIf | .otherwise | .endIf => true
  | _ => false

-- ============================================================== following

/-- The open scopes of a state follow the chains. -/
structure FollowsChains (env : Environment) (s : State) (cs : Chains) :
    Prop where
  /-- The `&IF`s among the scopes stand for the chains, in their order. -/
  tracks : Tracks s.nesting.scopes cs
  inFalseBranch : s.inFalseBranch = cs.any (!·.isActive)
  /-- A branch is taken only if those around it are. -/
  around : ∀ {inner c} {outer : Chains}, cs = inner ++ c :: outer →
    c.isActive = true → ∀ d ∈ outer, d.isActive = true
  /-- Of the branches of a chain at most one was ever taken: the first whose
  condition holds, if those around the chain are taken. -/
  first : ∀ {inner c} {outer : Chains}, cs = inner ++ c :: outer →
    ∀ i, i < c.conditions.length →
      ((c.upTo i).isActive = true
        ↔ outer.allActive = true ∧ c.conditions.findIdx? id = some i)
  /-- A condition that decides nothing leads to a branch not taken. -/
  dead : ∀ {steps t s'}, s.step env steps t = some s' → s.source.skip = 0 →
    t.kind = .directive → decides t cs = false →
    (Directive.ofWord t.text = .ifThen
      ∨ Directive.ofWord t.text = .elseIf ∧ cs ≠ []) →
    s'.inFalseBranch = true
  /-- What leads to a branch not taken, or goes on in it, expands and finds
  nothing, but for a condition that decides. -/
  unread : ∀ {steps t s'}, s.step env steps t = some s' →
    (0 < s.source.skip ∨ isBranchToken t = false ∨ decides t cs = false) →
    s'.inFalseBranch = true →
    s'.source = { s.source with skip := s'.source.skip }
      ∧ s'.findings.items = s.findings.items
  /-- `&ENDIF` closes the innermost `&IF` and no other scope. -/
  closed : ∀ {steps t s'}, s.step env steps t = some s' →
    s.source.skip = 0 → t.kind = .directive →
    Directive.ofWord t.text = .endIf → cs ≠ [] →
    ∃ within o outer, s.nesting.scopes = within ++ o :: outer
      ∧ o.scope.isConditional = true
      ∧ (∀ x ∈ within, x.scope.isConditional = false)
      ∧ s'.nesting.scopes = within ++ outer
      ∧ s'.findings.errors = s.findings.errors
  /-- A directive that wants an open `&IF` where none is: one error. -/
  unopened : ∀ {steps t s'}, s.step env steps t = some s' →
    s.source.skip = 0 → t.kind = .directive → wantsChain t = true →
    cs = [] →
    s'.nesting = s.nesting
      ∧ s'.findings.errors = s.findings.errors
          ++ [{ fault := .unexpectedDirective, token := t
                rootLine := s.rootLine t, depth := s.nesting.depth
                file := s.source.chain.path? t.owner }]

-- ================================================================= events

section Events

variable {env : Environment} {steps : Nat} {s s' : State} {t : Token}
  {cs : Chains} {o : Outcome}

/-- Changes of other kinds leave the chains as they are. -/
theorem Change.tracks (h : Change s s') (ht : Tracks s.nesting.scopes cs) :
    Tracks s'.nesting.scopes cs := by
  have other : ∀ {scope : Scope}, scope.kind ≠ .conditional →
      scope.isConditional = false := by
    intro scope hk
    cases hc : scope.isConditional with
    | false => rfl
    | true => exact absurd (isConditional_kind hc) hk
  cases h with
  | read source => exact ht
  | found name t content hn => exact ht
  | rewrote id f hf => exact ht
  | faulted fault t line depth => exact ht
  | lineEnded line => exact ht
  | opened scope line hs hk => exact .other (other hk.2) ht
  | closed within around found he hk =>
      rw [he] at ht
      exact Tracks.remove (other hk.2) ht
  | noted a ha => exact ht

theorem Changes.tracks (h : Changes s s') (ht : Tracks s.nesting.scopes cs) :
    Tracks s'.nesting.scopes cs := by
  induction h with
  | refl => exact ht
  | tail _ hc ih => exact hc.tracks ih

/-- A directive that is looked at is all that happens in its step, but for
the expansion of the token ahead. -/
theorem step_directive (hs : Sound s) (h : s.step env steps t = some s')
    (hskip : s.source.skip = 0) (hk : t.kind = .directive) :
    ∃ o, s.directive env steps t = some o
      ∧ s' = o.state.expandNext env := by
  have hobserve : s.observe t false = (none, s) := by
    unfold State.observe
    rw [hk]
  rcases step_cases h with ⟨hlt, -⟩ | ⟨-, o, hl, rfl⟩
  · rw [hskip] at hlt
    exact absurd hlt (Nat.lt_irrefl 0)
  · rw [hobserve] at hl
    refine ⟨o, ?_, rfl⟩
    unfold State.look at hl
    rw [if_neg hs.depth_ne_zero, hk] at hl
    exact hl

/-- `&IF`, with the chains it is read among. -/
theorem openIf_spec (ht : Tracks s.nesting.scopes cs)
    (h : s.openIf env steps t = some s') :
    ∃ u condition, s.takeCondition env steps cs.allActive = some (u, condition)
      ∧ s' = { u with
          nesting := s.nesting.openIf t (u.rootLine t)
            (cs.allActive && u.holds env condition t.owner) } := by
  have hlive : (!s.inFalseBranch) = cs.allActive := by
    show (!s.nesting.inFalseBranch) = _
    rw [ht.inFalseBranch_eq, Bool.not_not]
  unfold State.openIf at h
  dsimp only at h
  rw [hlive] at h
  obtain ⟨⟨u, condition⟩, hu, he⟩ := Option.bind_eq_some_iff.1 h
  cases he
  refine ⟨u, condition, hu, ?_⟩
  rw [(takeCondition_readsOn hu).nesting]

/-- `&ELSEIF` in an open chain. -/
theorem elseIf_spec {c : BranchChain}
    (ht : Tracks s.nesting.scopes (c :: cs))
    (h : s.elseIf env steps t = some s') :
    ∃ u condition, s.takeCondition env steps c.mayTurn = some (u, condition)
      ∧ s' = { u with
          nesting := s.nesting.turn
            (c.mayTurn && u.holds env condition t.owner)
            (c.mayTurn && u.holds env condition t.owner) } := by
  unfold State.elseIf at h
  rw [Nesting.mayTurn?_eq ht] at h
  obtain ⟨⟨u, condition⟩, hu, he⟩ := Option.bind_eq_some_iff.1 h
  cases he
  refine ⟨u, condition, hu, ?_⟩
  rw [(takeCondition_readsOn hu).nesting]

/-- The condition as it was read is the one that was told. -/
theorem condition?_eq {live holds : Bool} {u : State} {condition : Operands}
    (hu : s.takeCondition env steps live = some (u, condition))
    (hc : ∀ b, s.condition? env steps t = some b → holds = b)
    (hl : live = true) : u.holds env condition t.owner = holds := by
  rw [hl] at hu
  refine (hc _ ?_).symm
  unfold State.condition?
  rw [hu]
  rfl

/-- A directive of branches does to the open scopes what it does to the
chains. -/
theorem directive_tracks (ht : Tracks s.nesting.scopes cs)
    (h : s.directive env steps t = some o) {holds : Bool} {e : BranchEvent}
    (hc : ∀ b, s.condition? env steps t = some b → holds = b)
    (he : eventOf? t holds = some e) :
    Tracks o.state.nesting.scopes (cs.after e) := by
  unfold State.directive at h
  unfold eventOf? at he
  dsimp only at h
  cases hw : Directive.ofWord t.text with
  | ifThen =>
      rw [hw] at h he
      cases he
      obtain ⟨s', hs', rfl⟩ := Option.map_eq_some_iff.1 h
      obtain ⟨u, condition, hu, rfl⟩ := openIf_spec ht hs'
      have hagree : (cs.allActive && u.holds env condition t.owner)
          = (cs.allActive && holds) := by
        cases hl : cs.allActive with
        | false => rfl
        | true => rw [condition?_eq hu hc hl]
      show Tracks (s.nesting.openIf _ _ _).scopes _
      rw [hagree]
      exact Nesting.tracks_openIf ht t _ holds
  | elseIf =>
      rw [hw] at h he
      cases he
      obtain ⟨s', hs', rfl⟩ := Option.map_eq_some_iff.1 h
      cases cs with
      | nil =>
          unfold State.elseIf at hs'
          rw [Nesting.mayTurn?_eq_none ht] at hs'
          obtain ⟨⟨u, condition⟩, hu, rfl⟩ := Option.map_eq_some_iff.1 hs'
          show Tracks u.nesting.scopes []
          rw [(takeCondition_readsOn hu).nesting]
          exact ht
      | cons c cs =>
          obtain ⟨u, condition, hu, rfl⟩ := elseIf_spec ht hs'
          have hagree : (c.mayTurn && u.holds env condition t.owner)
              = (c.mayTurn && holds) := by
            cases hl : c.mayTurn with
            | false => rfl
            | true => rw [condition?_eq hu hc hl]
          show Tracks (s.nesting.turn _ _).scopes _
          rw [hagree]
          refine Nesting.tracks_turn ht holds rfl fun hlive => ?_
          -- a chain that was entered live may turn unless it is spent
          unfold BranchChain.mayTurn
          rw [hlive]
          cases c.isSpent <;> rfl
  | otherwise =>
      rw [hw] at h he
      cases he
      cases h
      show Tracks (s.otherwise t).nesting.scopes _
      unfold State.otherwise
      cases cs with
      | nil =>
          rw [Nesting.mayTurn?_eq_none ht]
          exact ht
      | cons c cs =>
          rw [Nesting.mayTurn?_eq ht]
          exact Nesting.tracks_turn ht true (Bool.and_true _).symm
            fun _ => rfl
  | endIf =>
      rw [hw] at h he
      cases he
      cases h
      show Tracks (s.endIf t).nesting.scopes _
      unfold State.endIf
      cases cs with
      | nil =>
          rw [Nesting.endIf?_eq_none ht]
          exact ht
      | cons c cs =>
          obtain ⟨within, o, around, -, -, -, hn, htr⟩ := Nesting.endIf?_eq ht
          rw [hn]
          exact htr
  | thenPart => rw [hw] at he; cases he
  | globalDefine => rw [hw] at he; cases he
  | scopedDefine => rw [hw] at he; cases he
  | undefine => rw [hw] at he; cases he
  | analyzeSuspend => rw [hw] at he; cases he
  | analyzeResume => rw [hw] at he; cases he
  | message => rw [hw] at he; cases he
  | other => rw [hw] at he; cases he

/-- The event of a directive, its condition told as it is where it can be
read. -/
theorem step_tracks (hs : Sound s) (ht : Tracks s.nesting.scopes cs)
    (h : s.step env steps t = some s') (hskip : s.source.skip = 0)
    (hk : t.kind = .directive) {e : BranchEvent}
    (he : eventOf? t ((s.condition? env steps t).getD false) = some e) :
    Tracks s'.nesting.scopes (cs.after e) := by
  obtain ⟨o, ho, rfl⟩ := step_directive hs h hskip hk
  rw [(expandNext_readsOn env o.state).nesting]
  refine directive_tracks ht ho (fun b hb => ?_) he
  rw [hb]
  rfl

/-- A directive that wants an open `&IF`, where none is. -/
theorem unopened_spec (ht : Tracks s.nesting.scopes [])
    (h : s.directive env steps t = some o) (hw : wantsChain t = true) :
    o.state.nesting = s.nesting
      ∧ o.state.findings.errors = s.findings.errors
          ++ [{ fault := .unexpectedDirective, token := t
                rootLine := s.rootLine t, depth := s.nesting.depth
                file := s.source.chain.path? t.owner }] := by
  unfold State.directive at h
  unfold wantsChain at hw
  dsimp only at h
  cases hd : Directive.ofWord t.text with
  | elseIf =>
      rw [hd] at h
      obtain ⟨s', hs', rfl⟩ := Option.map_eq_some_iff.1 h
      unfold State.elseIf at hs'
      rw [Nesting.mayTurn?_eq_none ht] at hs'
      obtain ⟨⟨u, condition⟩, hu, rfl⟩ := Option.map_eq_some_iff.1 hs'
      rw [takeCondition_unexpanded hu]
      exact ⟨rfl, rfl⟩
  | otherwise =>
      rw [hd] at h
      cases h
      show (s.otherwise t).nesting = _ ∧ (s.otherwise t).findings.errors = _
      unfold State.otherwise
      rw [Nesting.mayTurn?_eq_none ht]
      exact ⟨rfl, rfl⟩
  | endIf =>
      rw [hd] at h
      cases h
      show (s.endIf t).nesting = _ ∧ (s.endIf t).findings.errors = _
      unfold State.endIf
      rw [Nesting.endIf?_eq_none ht]
      exact ⟨rfl, rfl⟩
  | ifThen => rw [hd] at hw; cases hw
  | thenPart => rw [hd] at hw; cases hw
  | globalDefine => rw [hd] at hw; cases hw
  | scopedDefine => rw [hd] at hw; cases hw
  | undefine => rw [hd] at hw; cases hw
  | analyzeSuspend => rw [hd] at hw; cases hw
  | analyzeResume => rw [hd] at hw; cases hw
  | message => rw [hd] at hw; cases hw
  | other => rw [hd] at hw; cases hw

end Events

-- ============================================================= unexpanded

section Unexpanded

variable {env : Environment} {steps : Nat} {s s' : State} {t : Token}
  {cs : Chains} {o : Outcome}

/-- Nothing was expanded and nothing found. -/
def Unread (s s' : State) : Prop :=
  s'.source = { s.source with skip := s'.source.skip }
    ∧ s'.findings.items = s.findings.items

theorem Unread.trans {s'' : State} (h : Unread s s') (h' : Unread s' s'') :
    Unread s s'' := by
  refine ⟨?_, h'.2.trans h.2⟩
  rw [h'.1, h.1]

theorem observe_unread (skipped : Bool) :
    Unread s (s.observe t skipped).2
      ∧ (s.observe t skipped).2.nesting = s.nesting
      ∧ (s.observe t skipped).2.source = s.source := by
  unfold State.observe
  split
  · exact ⟨⟨rfl, rfl⟩, rfl, rfl⟩
  · split
    · exact ⟨⟨rfl, rfl⟩, rfl, rfl⟩
    · unfold State.stopStatement
      dsimp only
      split
      · exact ⟨⟨rfl, rfl⟩, rfl, rfl⟩
      · exact ⟨⟨rfl, rfl⟩, rfl, rfl⟩
  · exact ⟨⟨rfl, rfl⟩, rfl, rfl⟩

/-- A directive of branches whose condition decides nothing. -/
theorem branch_unread (ht : Tracks s.nesting.scopes cs)
    (h : s.directive env steps t = some o)
    (hb : isBranch (.ofWord t.text) = true) (hd : decides t cs = false) :
    Unread s o.state := by
  unfold State.directive at h
  unfold decides at hd
  dsimp only at h
  cases hw : Directive.ofWord t.text with
  | ifThen =>
      rw [hw] at h hd
      obtain ⟨s', hs', rfl⟩ := Option.map_eq_some_iff.1 h
      obtain ⟨u, condition, hu, rfl⟩ := openIf_spec ht hs'
      have hdead : cs.allActive = false := hd
      rw [hdead] at hu
      rw [takeCondition_unexpanded hu]
      exact ⟨rfl, rfl⟩
  | elseIf =>
      rw [hw] at h hd
      obtain ⟨s', hs', rfl⟩ := Option.map_eq_some_iff.1 h
      cases cs with
      | nil =>
          unfold State.elseIf at hs'
          rw [Nesting.mayTurn?_eq_none ht] at hs'
          obtain ⟨⟨u, condition⟩, hu, rfl⟩ := Option.map_eq_some_iff.1 hs'
          rw [takeCondition_unexpanded hu]
          exact ⟨rfl, rfl⟩
      | cons c cs =>
          obtain ⟨u, condition, hu, rfl⟩ := elseIf_spec ht hs'
          have hdead : c.mayTurn = false := hd
          rw [hdead] at hu
          rw [takeCondition_unexpanded hu]
          exact ⟨rfl, rfl⟩
  | otherwise =>
      rw [hw] at h
      cases h
      show Unread s (s.otherwise t)
      unfold State.otherwise
      split
      · exact ⟨rfl, rfl⟩
      · exact ⟨rfl, rfl⟩
  | endIf =>
      rw [hw] at h
      cases h
      show Unread s (s.endIf t)
      unfold State.endIf
      split
      · exact ⟨rfl, rfl⟩
      · exact ⟨rfl, rfl⟩
  | thenPart => rw [hw] at hb; cases hb
  | globalDefine => rw [hw] at hb; cases hb
  | scopedDefine => rw [hw] at hb; cases hb
  | undefine => rw [hw] at hb; cases hb
  | analyzeSuspend => rw [hw] at hb; cases hb
  | analyzeResume => rw [hw] at hb; cases hb
  | message => rw [hw] at hb; cases hb
  | other => rw [hw] at hb; cases hb

/-- Any other directive in a branch that is not taken. -/
theorem directive_unread (h : s.directive env steps t = some o)
    (hb : isBranch (.ofWord t.text) = false) (hf : s.inFalseBranch = true) :
    Unread s o.state := by
  have hline : ∀ {o : Outcome},
      (((s.takeLine env steps false).map (·.1)).map
        fun s => ({ state := s } : Outcome)) = some o →
      Unread s o.state := by
    intro o h
    obtain ⟨u, hu, rfl⟩ := Option.map_eq_some_iff.1 h
    obtain ⟨⟨u', operands⟩, hu', rfl⟩ := Option.map_eq_some_iff.1 hu
    rw [takeLine_unexpanded hu']
    exact ⟨rfl, rfl⟩
  unfold State.directive at h
  dsimp only at h
  rw [hf] at h
  cases hw : Directive.ofWord t.text with
  | ifThen => rw [hw] at hb; cases hb
  | elseIf => rw [hw] at hb; cases hb
  | otherwise => rw [hw] at hb; cases hb
  | endIf => rw [hw] at hb; cases hb
  | thenPart => rw [hw] at h; cases h; exact ⟨rfl, rfl⟩
  | other => rw [hw] at h; cases h; exact ⟨rfl, rfl⟩
  | globalDefine => rw [hw] at h; exact hline h
  | scopedDefine => rw [hw] at h; exact hline h
  | undefine => rw [hw] at h; exact hline h
  | analyzeSuspend => rw [hw] at h; exact hline h
  | analyzeResume => rw [hw] at h; exact hline h
  | message => rw [hw] at h; exact hline h

/-- A token that is no directive of branches, in a branch that is not
taken. -/
theorem look_unread {ended : Option Statement}
    (h : s.look env steps t ended = some o) (hb : isBranchToken t = false)
    (hf : s.inFalseBranch = true) : Unread s o.state := by
  unfold State.look at h
  split at h
  · cases h
    exact ⟨rfl, rfl⟩
  · split at h
    · rename_i hk
      unfold isBranchToken at hb
      rw [hk] at hb
      exact directive_unread h hb hf
    · cases h
      exact ⟨rfl, rfl⟩

/-- A step into a branch that is not taken, or within one, expands nothing,
but where it evaluates a condition. -/
theorem step_unread (hs : Sound s) (ht : Tracks s.nesting.scopes cs)
    (h : s.step env steps t = some s')
    (hd : 0 < s.source.skip ∨ isBranchToken t = false
      ∨ decides t cs = false)
    (hf : s'.inFalseBranch = true) : Unread s s' := by
  have hlast : ∀ {u : State}, s' = u.expandNext env →
      s' = u := by
    intro u he
    rw [he] at hf ⊢
    refine expandNext_of_false env u ?_
    unfold State.inFalseBranch at hf
    rw [(expandNext_readsOn env u).nesting] at hf
    exact hf
  rcases step_cases h with ⟨-, u, rfl, he⟩ | ⟨hskip, o, hl, he⟩
  · rw [hlast he]
    exact (observe_unread true).1.trans ⟨rfl, rfl⟩
  · rw [hlast he] at hf ⊢
    cases hb : isBranchToken t with
    | true =>
        obtain ⟨hkind, hword⟩ := Bool.and_eq_true_iff.1 hb
        have hdead : decides t cs = false := by
          rcases hd with hlt | hno | hdead
          · rw [hskip] at hlt
            exact absurd hlt (Nat.lt_irrefl 0)
          · rw [hb] at hno
            cases hno
          · exact hdead
        obtain ⟨o', ho', he'⟩ :=
          step_directive hs h hskip (eq_of_beq hkind)
        have hsame : o.state = o'.state :=
          (hlast he).symm.trans (hlast he')
        rw [hsame]
        exact branch_unread ht ho' hword hdead
    | false =>
        -- no branch was turned, so the branch was not taken before either
        have hkeeps : Keeps s o.state := fun hs =>
          (observe_keeps s t false).trans (look_keeps hl hb
            fun _ e hended id hid => observe_trigger hs hended hid) hs
        have hafter := Changes.tracks (hkeeps hs) ht
        have hbefore : (s.observe t false).2.inFalseBranch = true := by
          unfold State.inFalseBranch at hf ⊢
          rw [(observe_unread false).2.1, ht.inFalseBranch_eq,
            ← hafter.inFalseBranch_eq]
          exact hf
        exact (observe_unread false).1.trans (look_unread hl hb hbefore)

end Unexpanded

-- ================================================================== runs

variable {t : Token}

/-- A history keeps the invariant of the parse, and its directives make the
chains that the open scopes stand for. -/
theorem History.invariant {env : Environment} {es : List BranchEvent}
    {s : State} (h : History env es s) :
    Sound s ∧ Tracks s.nesting.scopes (Chains.ofEvents es) := by
  induction h with
  | start cache text path =>
      refine ⟨Sound.start env cache text path, ?_⟩
      have hnesting : (State.start env cache text path).nesting
          = ⟨[⟨.file 0, 0⟩]⟩ := by
        unfold State.start
        exact ((expandAt_readsOn env _ .nearest true).trans
          (expandAt_readsOn env _ _ true)).nesting
      rw [hnesting]
      exact .other rfl .nil
  | read _ source ih =>
      exact ⟨(Keeps.read _ source).sound ih.1, ih.2⟩
  | other _ hs hb ih =>
      have hchanges := step_keeps hs hb ih.1
      exact ⟨ih.1.changes hchanges, Changes.tracks hchanges ih.2⟩
  | branch _ hs hskip hk holds hc he ih =>
      obtain ⟨o, ho, rfl⟩ := step_directive ih.1 hs hskip hk
      refine ⟨ih.1.step hs, ?_⟩
      rw [(expandNext_readsOn env o.state).nesting, Chains.ofEvents_concat]
      exact directive_tracks ih.2 ho hc he

/-- Every directive of branches is one of the history. -/
theorem eventOf?_isSome (h : isBranchToken t = true) (holds : Bool) :
    ∃ e, eventOf? t holds = some e := by
  obtain ⟨-, hword⟩ := Bool.and_eq_true_iff.1 h
  unfold eventOf?
  cases hw : Directive.ofWord t.text with
  | ifThen => exact ⟨_, rfl⟩
  | elseIf => exact ⟨_, rfl⟩
  | otherwise => exact ⟨_, rfl⟩
  | endIf => exact ⟨_, rfl⟩
  | thenPart => rw [hw] at hword; cases hword
  | globalDefine => rw [hw] at hword; cases hword
  | scopedDefine => rw [hw] at hword; cases hword
  | undefine => rw [hw] at hword; cases hword
  | analyzeSuspend => rw [hw] at hword; cases hword
  | analyzeResume => rw [hw] at hword; cases hword
  | message => rw [hw] at hword; cases hword
  | other => rw [hw] at hword; cases hword

/-- A directive of branches, its condition told as it is where it can be
read. -/
theorem History.directive {env : Environment} {es : List BranchEvent}
    {s s' : State} {steps : Nat} {e : BranchEvent} (h : History env es s)
    (hs : s.step env steps t = some s') (hskip : s.source.skip = 0)
    (hk : t.kind = .directive)
    (he : eventOf? t ((s.condition? env steps t).getD false) = some e) :
    History env (es ++ [e]) s' := by
  refine h.branch hs hskip hk _ (fun b hb => ?_) he
  rw [hb]
  rfl

theorem History.step {env : Environment} {es : List BranchEvent}
    {s s' : State} {steps : Nat} (h : History env es s)
    (hs : s.step env steps t = some s') : ∃ es', History env es' s' := by
  by_cases hb : 0 < s.source.skip ∨ isBranchToken t = false
  · exact ⟨es, h.other hs hb⟩
  · rw [not_or, Bool.not_eq_false] at hb
    obtain ⟨hskip, hbranch⟩ := hb
    obtain ⟨e, he⟩ :=
      eventOf?_isSome hbranch ((s.condition? env steps t).getD false)
    have hk := eq_of_beq (Bool.and_eq_true_iff.1 hbranch).1
    exact ⟨_, h.directive hs (Nat.eq_zero_of_not_pos hskip) hk he⟩

/-- A run of a parse goes on with its history. -/
theorem History.run {env : Environment} {es : List BranchEvent}
    {s s' : State} {steps : Nat} (h : History env es s)
    (hr : s.run env steps = some s') : ∃ es', History env es' s' := by
  induction steps generalizing es s with
  | zero => cases hr
  | succ steps ih =>
      unfold State.run at hr
      split at hr
      · cases hr
        exact ⟨es, h⟩
      · rename_i u hu
        obtain ⟨cursor, -, rfl⟩ := Option.map_eq_some_iff.1 hu
        have hread := h.read
          { s.source with cursor, expanded := s.source.expanded - 1 }
        dsimp only at hr
        split at hr
        · cases hr
          exact ⟨es, hread⟩
        · split at hr
          · cases hr
          · rename_i v hv
            obtain ⟨es', hes'⟩ := hread.step hv
            exact ih hes' hr

/-- In any history of a parse, its open scopes follow the chains that the
directives make. -/
theorem branches_follow_chains {env : Environment} {es : List BranchEvent}
    {s : State} (h : History env es s) :
    FollowsChains env s (Chains.ofEvents es) := by
  obtain ⟨hs, ht⟩ := h.invariant
  generalize Chains.ofEvents es = cs at ht
  constructor
  case tracks => exact ht
  case inFalseBranch =>
    show s.nesting.inFalseBranch = _
    rw [ht.inFalseBranch_eq, Chains.allActive, List.not_all_eq_any_not]
  case around =>
    intro inner c outer hcs ha d hd
    rw [hcs] at ht
    have hlive := BranchChain.live_of_isActive ha
    rw [ht.live_eq] at hlive
    exact List.all_eq_true.1 hlive d hd
  case first =>
    intro inner c outer hcs i hi
    rw [hcs] at ht
    rw [BranchChain.upTo_isActive_iff hi, ← ht.live_eq]
    unfold BranchChain.taken?
    cases c.live with
    | false => simp
    | true => simp
  case dead =>
    intro steps t s' hstep hskip hk hd hw
    have hfalse : ∀ {cs' : Chains} {c : BranchChain}, c.isActive = false →
        Tracks s'.nesting.scopes (c :: cs') → s'.inFalseBranch = true := by
      intro cs' c hc ht'
      show s'.nesting.inFalseBranch = true
      rw [ht'.inFalseBranch_eq, Chains.allActive, List.all_cons, hc]
      rfl
    rcases hw with hw | ⟨hw, hne⟩
    · unfold decides at hd
      rw [hw] at hd
      have hdead : cs.allActive = false := hd
      have hafter := step_tracks hs ht hstep hskip hk (by
        unfold eventOf?
        rw [hw])
      refine hfalse ?_ hafter
      rw [BranchChain.isActive_single, hdead]
      rfl
    · obtain ⟨c, rest, rfl⟩ := List.exists_cons_of_ne_nil hne
      unfold decides at hd
      rw [hw] at hd
      have hdead : c.mayTurn = false := hd
      have hafter := step_tracks hs ht hstep hskip hk (by
        unfold eventOf?
        rw [hw])
      refine hfalse ?_ hafter
      rw [BranchChain.isActive_next, hdead]
      rfl
  case unread =>
    intro steps t s' hstep hd hf
    exact step_unread hs ht hstep hd hf
  case closed =>
    intro steps t s' hstep hskip hk hw hne
    obtain ⟨c, rest, rfl⟩ := List.exists_cons_of_ne_nil hne
    obtain ⟨within, o, outer, he, ho, hwithin, hn, -⟩ := Nesting.endIf?_eq ht
    obtain ⟨out, hd, rfl⟩ := step_directive hs hstep hskip hk
    have hout : out.state = { s with nesting := ⟨within ++ outer⟩ } := by
      unfold State.directive at hd
      dsimp only at hd
      rw [hw] at hd
      cases hd
      show s.endIf t = _
      unfold State.endIf
      rw [hn]
    refine ⟨within, o, outer, he, ho, hwithin, ?_, ?_⟩
    · rw [(expandNext_readsOn env out.state).nesting, hout]
    · rw [(expandNext_readsOn env out.state).errors, hout]
  case unopened =>
    rintro steps t s' hstep hskip hk hw rfl
    obtain ⟨out, hd, rfl⟩ := step_directive hs hstep hskip hk
    rw [(expandNext_readsOn env out.state).nesting,
      (expandNext_readsOn env out.state).errors]
    exact unopened_spec ht hd hw

/-- An `&IF` whose condition does not hold, and the `&ELSE` after it. -/
theorem branches_follow_chains_else :
    ∃ s, History {} [.ifThen false, .otherwise] s
      ∧ s.inFalseBranch = false
      ∧ FollowsChains {} s [⟨true, [false, true]⟩] := by
  let word (text : String) : Token :=
    { kind := .directive, text, start := default, range := default, owner := 0 }
  let s₀ : State := .start {} {} " FALSE &THEN" none
  have hcondition : s₀.condition? {} 10 (word "&IF") = some false := by
    decide +kernel
  have hrun : ((s₀.step {} 10 (word "&IF")).bind fun s =>
      (State.step {} 10 { s with source := { s.source with skip := 0 } }
        (word "&ELSE")).map (·.inFalseBranch)) = some false := by
    decide +kernel
  obtain ⟨s₁, h₁, hrest⟩ := Option.bind_eq_some_iff.1 hrun
  obtain ⟨s₂, h₂, hfalse⟩ := Option.map_eq_some_iff.1 hrest
  have hif : History {} [.ifThen false] s₁ := by
    refine (History.start {} " FALSE &THEN" none).directive h₁
      (by decide +kernel) rfl ?_
    show eventOf? _ ((s₀.condition? {} 10 _).getD false) = _
    rw [hcondition]
    decide
  have hevent : ∀ holds, eventOf? (word "&ELSE") holds = some .otherwise := by
    decide
  have helse : History {} [.ifThen false, .otherwise] s₂ :=
    (hif.read { s₁.source with skip := 0 }).directive h₂ rfl rfl (hevent _)
  exact ⟨s₂, helse, hfalse, branches_follow_chains helse⟩

end AblOutline.Parse
