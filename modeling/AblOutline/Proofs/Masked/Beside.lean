/-
A text with branches and the text where they are blanked out, read side by
side. The two parses stay alike (`Beside`). On branches that are taken they
read the same tokens, and the same lies around each token as far as a call
goes (`Level`); so what a token does in one parse it does in the other.
-/
import AblOutline.Proofs.Masked.Branching
import AblOutline.Proofs.Masked.Looking
import AblOutline.Proofs.Alike.Statements
import AblOutline.Proofs.Resting

namespace AblOutline.Parse

-- ================================================================= taken

section Taken

variable {env : Environment} {s s' : State} {t t' : Token} {cs : Chains}
  {more : List Token}

/-- The state after the end of a statement. -/
def State.stopped (env : Environment) (s : State) (t : Token) : State :=
  match s.stopStatement with
  | (some statement, s) => (s.space.endStatement env statement t).state
  | (none, s) => s.space

/-- The state after a token of a statement, or after its end. -/
def State.taken (env : Environment) (s : State) (t : Token) : State :=
  if t.kind = .eos then s.stopped env t else s.readToken env t

/-- The token is one of a statement, or ends it. -/
structure IsTold (t : Token) : Prop where
  trivia : t.kind.isTrivia = false
  directive : t.kind ≠ .directive
  plain : IsPlain t
  eof : t.isEof = false

/-- It is all that happens at such a token on a branch that is taken. -/
theorem look_told (env : Environment) (hs : Sound s)
    (hf : s.inFalseBranch = false) (ht : IsTold t) (k : Nat) :
    ∃ o, (s.observe t false).2.look env k t (s.observe t false).1 = some o
      ∧ o.state = s.taken env t := by
  obtain ⟨htrivia, hdirective, ⟨href, hinc⟩, heof⟩ := ht
  unfold State.observe State.taken
  cases hk : t.kind with
  | eos =>
      have hsound := (stopStatement_keeps s).sound hs
      have hfalse : s.stopStatement.2.inFalseBranch = false := by
        rw [stopStatement_state]
        exact hf
      dsimp only
      rw [if_neg Bool.false_ne_true, if_pos rfl]
      unfold State.stopped State.look
      rw [if_neg hsound.depth_ne_zero, hk, hfalse]
      generalize s.stopStatement = stop
      obtain ⟨_ | statement, u⟩ := stop
      · exact ⟨_, rfl, rfl⟩
      · exact ⟨_, rfl, rfl⟩
  | eol => rw [hk] at htrivia; cases htrivia
  | blank => rw [hk] at htrivia; cases htrivia
  | comment => rw [hk] at htrivia; cases htrivia
  | directive => exact absurd hk hdirective
  | reference => exact absurd hk href
  | inclusion => exact absurd hk hinc
  | eof => exact absurd hk (ne_of_beq_false heof)
  | _ =>
      refine ⟨(s.readToken env t).done, ?_, rfl⟩
      unfold State.look
      rw [if_neg hs.depth_ne_zero, hk, hf]
      rfl

theorem stopped_rests (env : Environment) (s : State) (t : Token) :
    Rests s.calmed.space (s.stopped env t) := by
  have hstate := stopStatement_state s
  unfold State.stopped
  generalize s.stopStatement = stop at hstate
  obtain ⟨_ | statement, u⟩ := stop
  · cases hstate
    exact .refl _
  · cases hstate
    exact .endStatement _ env statement t

theorem taken_source (env : Environment) (s : State) (t : Token) :
    (s.taken env t).source = s.source := by
  unfold State.taken
  split
  · exact (stopped_rests env s t).source
  · exact (Learns.readToken env s t).source

/-- At the end of a statement none is being read. -/
theorem taken_calm (env : Environment) (s : State) (hk : t.kind = .eos) :
    (s.taken env t).Calm := by
  have hrests := stopped_rests env s t
  unfold State.taken
  rw [if_pos hk]
  exact ⟨hrests.statement, hrests.restart⟩

/-- Whether a gap was passed does not depend on what was read before. -/
theorem taken_spaced (env : Environment) (s s' : State)
    (hk : t.kind = t'.kind) :
    (s.taken env t).analysis.spaced = (s'.taken env t').analysis.spaced := by
  unfold State.taken
  rw [hk]
  split
  · rw [(stopped_rests env s t).spaced, (stopped_rests env s' t').spaced]
    rfl
  · rw [(Learns.readToken env s t).spaced, (Learns.readToken env s' t').spaced]

/-- Which branches are taken stays as it is. -/
theorem taken_tracks (hs : Sound s) (hf : s.inFalseBranch = false)
    (ht : IsTold t) (hcs : Tracks s.nesting.scopes cs) :
    Tracks (s.taken env t).nesting.scopes cs := by
  obtain ⟨o, hlook, ho⟩ := look_told env hs hf ht 0
  have hbranch : isBranchToken t = false := by
    unfold isBranchToken
    rw [beq_false_of_ne ht.directive]
    rfl
  have hkeeps := look_keeps hlook hbranch fun _ e he id hid =>
    observe_trigger hs he hid
  rw [← ho]
  exact Changes.tracks (hkeeps ((observe_keeps s t false).sound hs))
    (Changes.tracks (observe_keeps s t false hs) hcs)

/-- Both parses stop a statement, or none. -/
theorem Alike.stopStatement (h : Alike s s')
    (hf : s.inFalseBranch = s'.inFalseBranch) :
    Alike s.stopStatement.2 s'.stopStatement.2
      ∧ (s.stopStatement.1 = none ∧ s'.stopStatement.1 = none
        ∨ ∃ st st', s.stopStatement.1 = some st
          ∧ s'.stopStatement.1 = some st' ∧ st.bare = st'.bare) := by
  have hempty : s.analysis.statement.isEmpty
      = s'.analysis.statement.isEmpty := by
    rw [← Statement.isEmpty_bare, h.statement, Statement.isEmpty_bare]
  have hcalmed : Alike s.calmed s'.calmed :=
    h.noting (fun a => { a with statement := {}, restart := false })
      fun _ => rfl
  have hstop : ∀ u : State, u.stopStatement
      = if u.analysis.statement.isEmpty || u.inFalseBranch then (none, u.calmed)
        else (some u.analysis.statement, u.calmed) := fun _ => rfl
  rw [hstop, hstop, hempty, hf]
  split
  · exact ⟨hcalmed, Or.inl ⟨rfl, rfl⟩⟩
  · exact ⟨hcalmed, Or.inr ⟨_, _, rfl, rfl, h.statement⟩⟩

/-- A token does the same in both parses. -/
theorem Alike.taken (h : Alike s s') (ht : t.bare = t'.bare)
    (hf : s.inFalseBranch = s'.inFalseBranch)
    (hspaced : s.analysis.spaced = s'.analysis.spaced)
    (hcall : t.kind = .word → s.mayCall = s'.mayCall)
    (hname : t.isWord "DYNAMIC-FUNCTION" = true →
      s.dynamicName? = s'.dynamicName?) :
    Alike (s.taken env t) (s'.taken env t') := by
  unfold State.taken
  rw [Token.kind_eq ht]
  split
  · obtain ⟨hstate, hended⟩ := h.stopStatement hf
    unfold State.stopped
    generalize s.stopStatement = stop at hstate hended
    generalize s'.stopStatement = stop' at hstate hended
    obtain ⟨ended, u⟩ := stop
    obtain ⟨ended', u'⟩ := stop'
    have hspace : Alike u.space u'.space := hstate.noted hstate.analysis
    rcases hended with ⟨rfl, rfl⟩ | ⟨st, st', rfl, rfl, hst⟩
    · exact hspace
    · exact hspace.endStatement hst (Token.text_eq ht)
  · exact h.readToken ht hspaced hcall hname

end Taken

-- =============================================================== together

/-- The one parse has read a text with branches up to some place, and the
other one that text without them. The chains `cs` are open there, and `before`
is what was kept and carries meaning, the last of it first. -/
structure Beside (cs : Chains) (before : List Piece) (s s' : State) :
    Prop where
  alike : Alike s s'
  tracks : Tracks s.nesting.scopes cs
  blocks : Tracks s'.nesting.scopes []
  skip : s.source.skip = 0 ∧ s'.source.skip = 0
  beyond : s.source.cursor.beyond.isEof = true
    ∧ s'.source.cursor.beyond.isEof = true
  past : meanings s'.source.cursor.passed = before
  calm : atRest before = true → s.Calm

/-- Both stand on branches that are taken, with `after` ahead of what is
kept. -/
structure Level (cs : Chains) (before after : List Piece) (s s' : State) : Prop
    extends Beside cs before s s' where
  active : cs.allActive = true
  spaced : s.analysis.spaced = s'.analysis.spaced
  behind : Behind s.source.cursor.passed before after

/-- The two parses go on to `u` and `u'`, with the tokens `more` and `more'`
ahead. -/
structure GoOn (env : Environment) (more more' : List Token)
    (s s' u u' : State) : Prop where
  leads : Leads env s u ∧ Leads env s' u'
  facing : Facing u more ∧ Facing u' more'

section Together

variable {env : Environment} {s s' u u' : State} {t t' : Token}
  {cs cs' : Chains} {before after ps blank : List Piece} {p : Piece}
  {more more' rest rest' : List Token} {start start' : Position}
  {offset offset' : Nat}

theorem GoOn.trans {v v' : State} (h : GoOn env rest rest' s s' u u')
    (h' : GoOn env more more' u u' v v') : GoOn env more more' s s' v v' :=
  ⟨⟨h.leads.1.trans h'.leads.1, h.leads.2.trans h'.leads.2⟩, h'.facing⟩

theorem Passes.meanings_eq (h : Passes env ps more s u) :
    meanings u.source.cursor.passed
      = (significant ps).reverse ++ meanings s.source.cursor.passed := by
  unfold meanings
  rw [h.passed, significant_append]
  unfold significant
  rw [List.filter_reverse]

theorem Facing.take (env : Environment) (h : Facing s (t :: more))
    (hskip : s.source.skip = 0) (hf : s.inFalseBranch = false) (ht : IsTold t) :
    ∃ n, Leads env s (((s.moved t more).taken env t).expandedTo n)
      ∧ Facing (((s.moved t more).taken env t).expandedTo n) more :=
  h.look hskip ht.eof
    (fun k _ => look_told env h.moved hf ht k)
    (by rw [taken_source])

/-- What is blanked out is passed in both. -/
theorem Beside.passes (h : Beside cs before s s') (hp : Passes env ps more s u)
    (ht : Tracks u.nesting.scopes cs') (hskip : u.source.skip = 0)
    (hi : Ignores env blank more' s' u') (hblank : IsGap blank) :
    Beside cs' before u u' where
  alike := (hp.alike.symm.trans h.alike).trans hi.alike
  tracks := ht
  blocks := hi.nesting ▸ h.blocks
  skip := ⟨hskip, hi.skip⟩
  beyond := ⟨hp.beyond ▸ h.beyond.1, hi.beyond ▸ h.beyond.2⟩
  past := by
    rw [hi.meanings_eq, hblank.significant_eq_nil]
    exact h.past
  calm hrest := hp.alike.calm (h.calm hrest)

theorem Level.live (h : Level cs before after s s') :
    s.inFalseBranch = false ∧ s'.inFalseBranch = false := by
  refine ⟨?_, ?_⟩
  · show s.nesting.inFalseBranch = false
    rw [h.tracks.inFalseBranch_eq, h.active]
    rfl
  · show s'.nesting.inFalseBranch = false
    rw [h.blocks.inFalseBranch_eq]
    rfl

/-- Gaps are passed in both, whatever is in them. -/
theorem Level.gap (env : Environment) (h : Level cs before after s s')
    (hf : Facing s (tokensFrom start offset ps ++ more))
    (hf' : Facing s' (tokensFrom start' offset' blank ++ more'))
    (hps : IsGap ps ∧ ps ≠ []) (hblank : IsGap blank ∧ blank ≠ []) :
    ∃ u u', Ignores env ps more s u ∧ Ignores env blank more' s' u'
      ∧ Level cs before after u u' := by
  obtain ⟨u, hu⟩ := hf.gap env h.skip.1 hps.1
  obtain ⟨u', hu'⟩ := hf'.gap env h.skip.2 hblank.1
  have hspaced := (hu.spaced h.live.1).resolve_right fun h => hps.2 h.1
  have hspaced' := (hu'.spaced h.live.2).resolve_right fun h => hblank.2 h.1
  refine ⟨u, u', hu, hu',
    h.toBeside.passes hu.toPasses (hu.nesting ▸ h.tracks) hu.skip hu' hblank.1,
    h.active, hspaced.trans hspaced'.symm, ?_⟩
  unfold Behind
  rw [hu.meanings_eq, hps.1.significant_eq_nil]
  exact h.behind

/-- A token without meaning. -/
theorem Level.trivia (env : Environment) (h : Level cs before after s s')
    (hf : Facing s (p.token start offset :: more))
    (hf' : Facing s' (p.token start offset' :: more'))
    (hp : p.kind.isTrivia = true) :
    ∃ u u', GoOn env more more' s s' u u' ∧ Level cs before after u u' := by
  have hgap : IsGap [p] ∧ [p] ≠ [] := by
    refine ⟨fun q hq => ?_, List.cons_ne_nil _ _⟩
    rw [List.mem_singleton.1 hq]
    exact hp
  have hone : Facing s (tokensFrom start offset [p] ++ more) := hf
  have hone' : Facing s' (tokensFrom start offset' [p] ++ more') := hf'
  obtain ⟨u, u', hu, hu', hlevel⟩ := h.gap env hone hone' hgap hgap
  exact ⟨u, u', ⟨⟨hu.leads, hu'.leads⟩, ⟨hu.facing, hu'.facing⟩⟩, hlevel⟩

/-- A token of a statement, or its end, is taken in both. -/
theorem Level.taken (h : Level cs before (p :: after) s s')
    (hf : Facing s (t :: more)) (hf' : Facing s' (t' :: more'))
    (ht : IsTold t) (ht' : IsTold t') (hbare : t.bare = t'.bare)
    (hpiece : t.piece = p) (hafter : meanings more' = after)
    (hparted : Parted (p :: before) (meanings more) after) (n n' : Nat) :
    Level cs (p :: before) after
      (((s.moved t more).taken env t).expandedTo n)
      (((s'.moved t' more').taken env t').expandedTo n') := by
  have hpiece' : t'.piece = p := by
    rw [← hpiece]
    unfold Token.piece
    rw [Token.kind_eq hbare, Token.text_eq hbare]
  have hmeanings : ∀ ts, meanings (t :: ts) = p :: meanings ts := fun ts =>
    hpiece ▸ meanings_cons ht.trivia
  have hmeanings' : ∀ ts, meanings (t' :: ts) = p :: meanings ts := fun ts =>
    hpiece' ▸ meanings_cons ht'.trivia
  obtain ⟨hlive, hlive'⟩ := h.live
  have hmoved : Alike (s.moved t more) (s'.moved t' more') :=
    h.alike.aside rfl rfl
  have hcall : t.kind = .word →
      (s.moved t more).mayCall = (s'.moved t' more').mayCall := by
    intro hk
    exact mayCall_alike h.beyond.1 h.beyond.2 (hpiece ▸ hk) h.past
      (hafter.symm ▸ h.behind) (hafter.symm ▸ hparted)
  have hname : t.isWord "DYNAMIC-FUNCTION" = true →
      (s.moved t more).dynamicName? = (s'.moved t' more').dynamicName? := by
    intro hw
    rw [isWord_piece, hpiece] at hw
    rw [State.dynamicName?_eq (s := s.moved t more) h.beyond.1,
      State.dynamicName?_eq (s := s'.moved t' more') h.beyond.2]
    exact Parted.name (hafter.symm ▸ hparted) hw
  have halike : Alike ((s.moved t more).taken env t)
      ((s'.moved t' more').taken env t') :=
    hmoved.taken hbare (hlive.trans hlive'.symm) h.spaced hcall hname
  have hsource := taken_source env (s.moved t more) t
  have hsource' := taken_source env (s'.moved t' more') t'
  have hrest : atRest (p :: before) = true → t.kind = .eos := by
    intro hrest
    rw [← show p.kind = t.kind from congrArg Piece.kind hpiece.symm]
    exact eq_of_beq hrest
  refine ⟨⟨?_, ?_, ?_, ⟨?_, ?_⟩, ⟨?_, ?_⟩, ?_, ?_⟩, h.active, ?_, ?_⟩
  case refine_1 => exact halike.aside rfl rfl
  case refine_2 => exact taken_tracks hf.moved hlive ht h.tracks
  case refine_3 => exact taken_tracks hf'.moved hlive' ht' h.blocks
  case refine_4 =>
    show ((s.moved t more).taken env t).source.skip = 0
    rw [hsource]
    exact h.skip.1
  case refine_5 =>
    show ((s'.moved t' more').taken env t').source.skip = 0
    rw [hsource']
    exact h.skip.2
  case refine_6 =>
    show ((s.moved t more).taken env t).source.cursor.beyond.isEof = true
    rw [hsource]
    exact h.beyond.1
  case refine_7 =>
    show ((s'.moved t' more').taken env t').source.cursor.beyond.isEof = true
    rw [hsource']
    exact h.beyond.2
  case refine_8 =>
    show meanings ((s'.moved t' more').taken env t').source.cursor.passed = _
    rw [hsource']
    exact (hmeanings' _).trans (congrArg (p :: ·) h.past)
  case refine_9 =>
    intro h
    have hcalm := taken_calm env (s.moved t more) (hrest h)
    exact ⟨hcalm.statement, hcalm.restart⟩
  case refine_10 => exact taken_spaced env _ _ (Token.kind_eq hbare)
  case refine_11 =>
    left
    show (meanings ((s.moved t more).taken env t).source.cursor.passed)[0]?
      = (p :: meanings s.source.cursor.passed)[0]?
    rw [hsource]
    exact congrArg (·[0]?) (hmeanings s.source.cursor.passed)

/-- A token of a statement, or its end. -/
theorem Level.told (env : Environment) (h : Level cs before (p :: after) s s')
    (hf : Facing s (p.token start offset :: more))
    (hf' : Facing s' (p.token start offset' :: more'))
    (hp : p.kind.isTrivia = false) (hd : p.kind ≠ .directive)
    (he : p.kind ≠ .eof) (hplain : p.IsPlain)
    (hafter : meanings more' = after)
    (hparted : Parted (p :: before) (meanings more) after) :
    ∃ u u', GoOn env more more' s s' u u'
      ∧ Level cs (p :: before) after u u' := by
  have htold : ∀ offset, IsTold (p.token start offset) := fun _ =>
    ⟨hp, hd, hplain, beq_false_of_ne he⟩
  obtain ⟨n, hl, hn⟩ := hf.take env h.skip.1 h.live.1 (htold offset)
  obtain ⟨n', hl', hn'⟩ := hf'.take env h.skip.2 h.live.2 (htold offset')
  exact ⟨_, _, ⟨⟨hl, hl'⟩, ⟨hn, hn'⟩⟩,
    h.taken hf hf' (htold offset) (htold offset') rfl p.piece_token hafter
      hparted n n'⟩

/-- Lines on branches that are taken. -/
theorem Level.lines (env : Environment)
    (hps : ∀ p ∈ ps, (p.kind ≠ .directive ∧ p.IsPlain) ∧ p.kind ≠ .eof)
    (h : Level cs before (significant ps ++ after) s s')
    (hf : Facing s (tokensFrom start offset ps ++ more))
    (hf' : Facing s' (tokensFrom start offset' ps ++ more'))
    (hafter : meanings more' = after)
    (hparted : Parted ((significant ps).reverse ++ before) (meanings more)
      after) :
    ∃ u u', GoOn env more more' s s' u u'
      ∧ Level cs ((significant ps).reverse ++ before) after u u' := by
  induction ps generalizing s s' start offset offset' before with
  | nil => exact ⟨s, s', ⟨⟨.refl s, .refl s'⟩, ⟨hf, hf'⟩⟩, h⟩
  | cons p ps ih =>
      have hrest := fun q hq => hps q (List.mem_cons_of_mem p hq)
      obtain ⟨⟨hd, hplain⟩, he⟩ := hps p List.mem_cons_self
      rw [Parse.significant_cons] at h hparted ⊢
      cases hp : p.kind.isTrivia with
      | true =>
          rw [hp, if_pos rfl] at h hparted
          obtain ⟨u, u', hgo, hu⟩ := h.trivia env hf hf' hp
          obtain ⟨v, v', hgo', hv⟩ :=
            ih hrest hu hgo.facing.1 hgo.facing.2 hparted
          exact ⟨v, v', hgo.trans hgo', hv⟩
      | false =>
          rw [hp, if_neg Bool.false_ne_true] at h hparted
          rw [if_neg Bool.false_ne_true]
          rw [List.reverse_cons, List.append_assoc] at hparted ⊢
          have hahead : Parted (p :: before)
              (meanings (tokensFrom (start.after p.chars)
                (offset + Token.byteCount p.chars) ps ++ more))
              (significant ps ++ after) := by
            rw [meanings_tokensFrom]
            exact hparted.append
          obtain ⟨u, u', hgo, hu⟩ := h.told env hf hf' hp hd he hplain
            ((meanings_tokensFrom _ _ ps more').trans
              (congrArg (significant ps ++ ·) hafter)) hahead
          obtain ⟨v, v', hgo', hv⟩ :=
            ih hrest hu hgo.facing.1 hgo.facing.2 hparted
          exact ⟨v, v', hgo.trans hgo', hv⟩

end Together

end AblOutline.Parse
