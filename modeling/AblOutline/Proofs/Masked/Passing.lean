/-
Tokens that say nothing. What stands between statements, what is on a branch
that is not taken, and the operands of a directive are passed by a parse: it
comes to a state that is alike (`Passes`). Only a dot or a colon on a branch
that is not taken drops the statement being read, so none may be being read
there (`State.Calm`).
-/
import AblOutline.Proofs.Alike
import AblOutline.Proofs.PlainRun
import AblOutline.Proofs.Program.Grammar

namespace AblOutline.Parse

-- ================================================================== calm

/-- No statement is being read. -/
structure State.Calm (s : State) : Prop where
  statement : s.analysis.statement = {}
  restart : s.analysis.restart = false

theorem Alike.calm {s u : State} (h : Alike s u) (hs : s.Calm) : u.Calm := by
  have hbare := h.statement
  rw [hs.statement] at hbare
  refine ⟨?_, h.restart.symm.trans hs.restart⟩
  generalize u.analysis.statement = statement at hbare ⊢
  obtain ⟨kind, parts, trigger⟩ := statement
  injection hbare with hkind hparts htrigger
  cases hkind
  cases htrigger
  cases List.map_eq_nil_iff.1 hparts.symm
  rfl

/-- The state with no statement being read. -/
def State.calmed (s : State) : State :=
  { s with analysis := { s.analysis with statement := {}, restart := false } }

theorem State.Calm.calmed_eq {s : State} (h : s.Calm) : s.calmed = s := by
  obtain ⟨source, nesting, findings, analysis⟩ := s
  obtain ⟨statement, restart, _⟩ := analysis
  obtain ⟨hs, hr⟩ := h
  cases hs
  cases hr
  rfl

theorem stopStatement_state (s : State) : s.stopStatement.2 = s.calmed := by
  unfold State.stopStatement
  dsimp only
  split <;> rfl

-- =============================================================== observed

section Observed

variable {s : State} {t : Token}

/-- A token that ends no statement is observed without a change to what is
said. -/
theorem observe_alike (h : t.kind = .eos → s.Calm) :
    Alike s (s.observe t false).2
      ∧ (s.observe t false).2.source = s.source
      ∧ (s.observe t false).2.nesting = s.nesting
      ∧ (s.observe t false).2.findings.errors = s.findings.errors := by
  unfold State.observe
  cases hk : t.kind with
  | eol => exact ⟨(Alike.refl s).recordLine _, rfl, rfl, rfl⟩
  | eos =>
      rw [if_neg Bool.false_ne_true, stopStatement_state, (h hk).calmed_eq]
      exact ⟨.refl s, rfl, rfl, rfl⟩
  | _ => exact ⟨.refl s, rfl, rfl, rfl⟩

/-- So is one that is passed over. -/
theorem observe_skipped (s : State) (t : Token) :
    Alike s (s.observe t true).2
      ∧ (s.observe t true).2.source = s.source
      ∧ (s.observe t true).2.nesting = s.nesting := by
  unfold State.observe
  cases t.kind with
  | eol => exact ⟨(Alike.refl s).recordLine _, rfl, rfl⟩
  | _ => exact ⟨.refl s, rfl, rfl⟩

/-- The state after a token that is not looked into. -/
def State.ignoring (s : State) : State :=
  if s.inFalseBranch then s else s.space

theorem ignoring_alike (s : State) :
    Alike s s.ignoring ∧ s.ignoring.source = s.source
      ∧ s.ignoring.nesting = s.nesting
      ∧ s.ignoring.findings.errors = s.findings.errors := by
  unfold State.ignoring
  split
  · exact ⟨.refl s, rfl, rfl, rfl⟩
  · exact ⟨(Alike.refl s).space, rfl, rfl, rfl⟩

theorem look_ignored {env : Environment} {k : Nat} {ended : Option Statement}
    (hs : Sound s) (hk : t.kind ≠ .directive)
    (h : s.inFalseBranch = true ∨ t.kind.isTrivia = true) :
    s.look env k t ended = some s.ignoring.done := by
  unfold State.look State.ignoring
  rw [if_neg hs.depth_ne_zero]
  cases hf : s.inFalseBranch with
  | true =>
      cases hkind : t.kind with
      | directive => exact absurd hkind hk
      | _ => rfl
  | false =>
      rw [hf] at h
      have htrivia : t.kind.isTrivia = true :=
        h.resolve_left Bool.false_ne_true
      cases hkind : t.kind with
      | blank => rfl
      | comment => rfl
      | eol => rfl
      | _ => rw [hkind] at htrivia; cases htrivia

end Observed

-- ================================================================ passes

/-- The pieces `ps` are passed from `s` on, to the state `u` that has still to
read `more`. -/
structure Passes (env : Environment) (ps : List Piece) (more : List Token)
    (s u : State) : Prop where
  leads : Leads env s u
  facing : Facing u more
  alike : Alike s u
  passed : u.source.cursor.passed.map (·.piece)
    = ps.reverse ++ s.source.cursor.passed.map (·.piece)
  beyond : u.source.cursor.beyond = s.source.cursor.beyond

/-- The pieces are passed without a look into them: no scope and no error
changes, and a gap is remembered where there is a look at one. -/
structure Ignores (env : Environment) (ps : List Piece) (more : List Token)
    (s u : State) : Prop extends Passes env ps more s u where
  nesting : u.nesting = s.nesting
  errors : u.findings.errors = s.findings.errors
  skip : u.source.skip = 0
  spaced : s.inFalseBranch = false →
    u.analysis.spaced = true ∨ ps = [] ∧ u.analysis.spaced = s.analysis.spaced

section Passes

variable {env : Environment} {s u v : State} {ps qs : List Piece} {t : Token}
  {ts more rest : List Token} {start : Position} {offset : Nat}

theorem Passes.trans (h : Passes env ps rest s u) (h' : Passes env qs more u v) :
    Passes env (ps ++ qs) more s v where
  leads := h.leads.trans h'.leads
  facing := h'.facing
  alike := h.alike.trans h'.alike
  passed := by
    rw [h'.passed, h.passed, List.reverse_append, List.append_assoc]
  beyond := h'.beyond.trans h.beyond

theorem Ignores.trans (h : Ignores env ps rest s u)
    (h' : Ignores env qs more u v) : Ignores env (ps ++ qs) more s v where
  toPasses := h.toPasses.trans h'.toPasses
  nesting := h'.nesting.trans h.nesting
  errors := h'.errors.trans h.errors
  skip := h'.skip
  spaced hf := by
    have hfalse : u.inFalseBranch = false := by
      unfold State.inFalseBranch
      rw [h.nesting]
      exact hf
    rcases h'.spaced hfalse with hs | ⟨rfl, hs⟩
    · exact Or.inl hs
    · rw [List.append_nil, hs]
      exact h.spaced hf

theorem Ignores.refl (h : Facing s more) (hskip : s.source.skip = 0) :
    Ignores env [] more s s :=
  ⟨⟨.refl s, h, .refl s, rfl, rfl⟩, rfl, rfl, hskip,
    fun _ => Or.inr ⟨rfl, rfl⟩⟩

variable (env)

/-- A token is passed that is not looked into. -/
theorem Facing.ignoreOne (h : Facing s (t :: more)) (hskip : s.source.skip = 0)
    (hk : t.kind ≠ .directive) (ht : t.isEof = false)
    (hignored : s.inFalseBranch = true ∨ t.kind.isTrivia = true)
    (hcalm : t.kind = .eos → s.Calm) :
    ∃ u, Ignores env [t.piece] more s u := by
  obtain ⟨halike, hsource, hnesting, herrors⟩ :=
    observe_alike (s := s.moved t more) (t := t) fun he =>
      ⟨(hcalm he).statement, (hcalm he).restart⟩
  have hmoved : Alike s (s.moved t more) := (Alike.refl s).read rfl
  have hsound := (observe_keeps (s.moved t more) t false).sound h.moved
  generalize hw : (s.moved t more).observe t false = w
    at halike hsource hnesting herrors hsound
  have hfalse : w.2.inFalseBranch = s.inFalseBranch :=
    congrArg Nesting.inFalseBranch hnesting
  obtain ⟨halike', hsource', hnesting', herrors'⟩ := ignoring_alike w.2
  have hcursor : w.2.ignoring.source = (s.moved t more).source :=
    hsource'.trans hsource
  have hlook : ∀ k, more.length < k → ∃ o,
      ((s.moved t more).observe t false).2.look env k t
          ((s.moved t more).observe t false).1 = some o
        ∧ o.state = w.2.ignoring := by
    intro k _
    rw [hw]
    exact ⟨_, look_ignored hsound hk (hfalse ▸ hignored), rfl⟩
  obtain ⟨n, hl, hfacing⟩ :=
    h.look hskip ht hlook (congrArg (·.cursor) hcursor)
  refine ⟨w.2.ignoring.expandedTo n, ⟨hl, hfacing, ?_, ?_, ?_⟩,
    hnesting'.trans hnesting, herrors'.trans herrors, ?_,
    fun hf => Or.inl ?_⟩
  · exact ((hmoved.trans halike).trans halike').read rfl
  · show w.2.ignoring.source.cursor.passed.map _ = _
    rw [hcursor]
    rfl
  · show w.2.ignoring.source.cursor.beyond = _
    rw [hcursor]
    rfl
  · show w.2.ignoring.source.skip = 0
    rw [hcursor]
    exact hskip
  · show w.2.ignoring.analysis.spaced = true
    unfold State.ignoring
    rw [hfalse, hf]
    rfl

/-- Tokens are passed that are not looked into. -/
theorem Facing.ignore (h : Facing s (tokensFrom start offset ps ++ more))
    (hskip : s.source.skip = 0)
    (hps : ∀ p ∈ ps, p.kind ≠ .directive ∧ p.kind ≠ .eof)
    (hignored : s.inFalseBranch = true ∨ IsGap ps)
    (hcalm : (∃ p ∈ ps, p.kind = .eos) → s.Calm) :
    ∃ u, Ignores env ps more s u := by
  induction ps generalizing s start offset with
  | nil => exact ⟨s, .refl h hskip⟩
  | cons p ps ih =>
      obtain ⟨hk, he⟩ := hps p List.mem_cons_self
      obtain ⟨u, hu⟩ := Facing.ignoreOne env (t := p.token start offset) h hskip hk (beq_false_of_ne he)
        (hignored.imp_right fun hg => hg p List.mem_cons_self)
        fun hk => hcalm ⟨p, List.mem_cons_self, hk⟩
      rw [p.piece_token] at hu
      have hfalse : u.inFalseBranch = s.inFalseBranch :=
        congrArg Nesting.inFalseBranch hu.nesting
      obtain ⟨v, hv⟩ := ih hu.facing hu.skip
        (fun q hq => hps q (List.mem_cons_of_mem _ hq))
        (hfalse ▸ hignored.imp_right fun hg q hq =>
          hg q (List.mem_cons_of_mem _ hq))
        fun ⟨q, hq, hk⟩ =>
          hu.alike.calm (hcalm ⟨q, List.mem_cons_of_mem _ hq, hk⟩)
      exact ⟨v, hu.trans hv⟩

/-- Tokens are passed that carry no meaning. -/
theorem Facing.gap (h : Facing s (tokensFrom start offset ps ++ more))
    (hskip : s.source.skip = 0) (hps : IsGap ps) :
    ∃ u, Ignores env ps more s u := by
  have hkind : ∀ {k : TokenKind}, k.isTrivia = false →
      ∀ p ∈ ps, p.kind ≠ k := by
    rintro k hk p hp rfl
    rw [hps p hp] at hk
    cases hk
  exact h.ignore env hskip (fun p hp => ⟨hkind rfl p hp, hkind rfl p hp⟩)
    (Or.inr hps) fun ⟨p, hp, he⟩ => absurd he (hkind rfl p hp)

/-- The tokens that a directive says to pass over. -/
theorem Facing.passOver (h : Facing s (ts ++ more))
    (hskip : s.source.skip = ts.length) (ht : ∀ t ∈ ts, t.isEof = false) :
    ∃ u, Passes env (ts.map (·.piece)) more s u ∧ u.nesting = s.nesting
      ∧ u.source.skip = 0 := by
  induction ts generalizing s with
  | nil => exact ⟨s, ⟨.refl s, h, .refl s, rfl, rfl⟩, rfl, hskip⟩
  | cons t ts ih =>
      obtain ⟨n, hl, hfacing⟩ : ∃ n, Leads env s _ ∧ Facing (State.expandedTo _ n) _ :=
        Facing.pass h hskip (ht t List.mem_cons_self) rfl
      obtain ⟨halike, hsource, hnesting⟩ :=
        observe_skipped (s.moved t (ts ++ more)) t
      obtain ⟨u, hu, hsame, hzero⟩ := ih hfacing rfl fun x hx =>
        ht x (List.mem_cons_of_mem _ hx)
      have hmoved : Alike s (s.moved t (ts ++ more)) := (Alike.refl s).read rfl
      refine ⟨u, ⟨hl.trans hu.leads, hu.facing, ?_, ?_, hu.beyond⟩,
        hsame.trans hnesting, hzero⟩
      · refine Alike.trans ?_ hu.alike
        exact (hmoved.trans halike).read (congrArg (·.chain) hsource.symm)
      · rw [hu.passed, List.map_cons, List.reverse_cons, List.append_assoc]
        rfl

end Passes

end AblOutline.Parse
