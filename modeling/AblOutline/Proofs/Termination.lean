/-
Where a parse without included files comes to its end, and where it does not.
Each token that is passed leaves less to read, references before tokens
(`weight_next`); so a parse ends, unless some reference stands for a text that
shows a reference when it is read again (`parse_ends_or_shows`).

There are such texts. The value of a definition is put together from operands
that are expanded, but a comment may end in the middle of a string among them.
So it may bring itself in again (`Revives`), and then each token that is passed
leads to the same again (`Loops.next`), and the parse never comes to the end
(`parse_endless`).
-/
import AblOutline.Proofs.Termination.Endless
import Mathlib.Logic.Relation

namespace AblOutline

namespace Parse

-- ================================================================= passing

/-- The state after the next token, if there is one before the end mark. -/
def State.next? (env : Environment) (steps : Nat) (s : State) : Option State :=
  s.advance?.bind fun u =>
    if u.source.cursor.current.isEof then none
    else u.step env steps u.source.cursor.current

/-- A token is passed, in some number of steps. -/
def Next (env : Environment) (s u : State) : Prop :=
  ∃ steps, s.next? env steps = some u

/-- Any number of tokens are passed. -/
abbrev LeadsTo (env : Environment) : State → State → Prop :=
  Relation.ReflTransGen (Next env)

/-- The state after that many tokens. -/
def State.onward? (env : Environment) (steps : Nat) : Nat → State → Option State
  | 0, s => some s
  | n + 1, s => (s.next? env steps).bind (onward? env steps n)

section Passing

variable {env : Environment} {steps steps' n : Nat} {s u r : State}

theorem leadsTo_of_onward? (h : s.onward? env steps n = some u) :
    LeadsTo env s u := by
  induction n generalizing s with
  | zero =>
      cases h
      exact .refl
  | succ n ih =>
      obtain ⟨v, hv, hu⟩ := Option.bind_eq_some_iff.1 h
      exact .head ⟨steps, hv⟩ (ih hu)

theorem next?_cases (h : s.next? env steps = some u) :
    ∃ v, s.advance? = some v ∧ v.source.cursor.current.isEof = false
      ∧ v.step env steps v.source.cursor.current = some u := by
  obtain ⟨v, hv, hu⟩ := Option.bind_eq_some_iff.1 h
  split at hu
  · cases hu
  · rename_i heof
    exact ⟨v, hv, Bool.eq_false_iff.2 heof, hu⟩

theorem next?_eq {v : State} (hv : s.advance? = some v)
    (heof : v.source.cursor.current.isEof = false) :
    s.next? env steps = v.step env steps v.source.cursor.current := by
  unfold State.next?
  rw [hv, Option.bind_some, heof, if_neg Bool.false_ne_true]

theorem next?_more (hle : steps ≤ steps') (h : s.next? env steps = some u) :
    s.next? env steps' = some u := by
  obtain ⟨v, hv, heof, hu⟩ := next?_cases h
  rw [next?_eq hv heof]
  exact step_more hle hu

/-- A run passes the next token, and goes on from there. -/
theorem run_next? (h : s.next? env steps = some u) :
    s.run env (steps + 1) = u.run env steps := by
  obtain ⟨v, hv, heof, hu⟩ := next?_cases h
  conv => lhs; unfold State.run
  rw [hv]
  dsimp only
  rw [heof, if_neg Bool.false_ne_true, hu]

/-- A run that ends passes all that is reached on its way. -/
theorem LeadsTo.run (h : LeadsTo env s u) (hr : s.run env n = some r) :
    ∃ m, u.run env m = some r := by
  induction h with
  | refl => exact ⟨n, hr⟩
  | tail _ hnext ih =>
      obtain ⟨m, hm⟩ := ih
      obtain ⟨steps, hsteps⟩ := hnext
      refine ⟨steps + m, ?_⟩
      rw [← run_next? (next?_more (Nat.le_add_right steps m) hsteps)]
      exact run_more (by omega) hm

/-- A run passes no token that is not done with. -/
theorem run_none {v : State} (hv : s.advance? = some v)
    (heof : v.source.cursor.current.isEof = false)
    (hstep : ∀ steps, v.step env steps v.source.cursor.current = none) (m : Nat) :
    s.run env m = none := by
  cases m with
  | zero => rfl
  | succ m =>
      unfold State.run
      rw [hv]
      dsimp only
      rw [heof, if_neg Bool.false_ne_true, hstep]

/-- A parse gives nothing, when no run gives anything from some state on. -/
theorem parse?_none {cache : TokenCache} {text : String} {path : Option String}
    (hs : LeadsTo env (.start env cache text path) s)
    (h : ∀ m, s.run env m = none) :
    ¬ ∃ steps r, parse? steps env cache text path = some r := by
  rintro ⟨steps, r, hparse⟩
  obtain ⟨u, hrun, -⟩ := Option.map_eq_some_iff.1 hparse
  obtain ⟨m, hm⟩ := hs.run hrun
  rw [h m] at hm
  cases hm

end Passing

-- ================================================================== ending

section Ending

variable {env : Environment} {s u v : State}

theorem advance?_cases (h : s.advance? = some v) :
    (∃ t, s.source.cursor.ahead = t :: v.source.cursor.ahead)
      ∧ v.source.cursor.beyond = s.source.cursor.beyond
      ∧ v.source.chain = s.source.chain
      ∧ v.source.definitions = s.source.definitions := by
  obtain ⟨cursor, hcursor, rfl⟩ := Option.map_eq_some_iff.1 h
  unfold Cursor.advance? at hcursor
  split at hcursor
  · cases hcursor
  · rename_i t rest hahead
    cases hcursor
    exact ⟨⟨t, hahead⟩, rfl, rfl, rfl⟩

/-- Once a token is taken and the next one expanded, what is ahead is the same
or has fewer references. -/
theorem step_lighter
    (hr : ∀ name file, env.resolver.resolve name file = none)
    (hv : ¬ v.source.ShowsReference env.options.platform)
    (hu : ¬ u.source.ShowsReference env.options.platform) {steps : Nat}
    {t : Token} (h : v.step env steps t = some u) :
    u.source.cursor.beyond = v.source.cursor.beyond
      ∧ (u.source.cursor.ahead = v.source.cursor.ahead
        ∨ references u.source.cursor.ahead
          < references v.source.cursor.ahead) := by
  rw [step_eq] at h
  obtain ⟨w, hw, rfl⟩ := Option.map_eq_some_iff.1 h
  obtain ⟨x, hx, hstream⟩ := takeToken_lowers hw
  have hnext := expandNext_sinks w hr
  -- the next token is expanded with the definitions of the state after it
  have hshows : ¬ w.source.ShowsReference env.options.platform := fun h =>
    hu (h.congr hnext.chain.symm hnext.definitions.symm)
  have hcursor : w.source.cursor = x.cursor := congrArg (·.1) hstream
  have hfirst := hx.lighter hv
  rw [← hcursor] at hfirst
  refine ⟨hnext.beyond.trans (hcursor ▸ hx.beyond), ?_⟩
  rcases hnext.lighter hshows with he | hlt
  · rw [he]
    exact hfirst
  · right
    rcases hfirst with he' | hlt'
    · exact he' ▸ hlt
    · exact hlt.trans hlt'

/-- After a token there is less left to read. -/
theorem weight_next (hr : ∀ name file, env.resolver.resolve name file = none)
    (hs : ¬ s.source.ShowsReference env.options.platform)
    (hu : ¬ u.source.ShowsReference env.options.platform)
    (h : Next env s u) :
    weight .nearest u < weight .nearest s
      ∧ u.source.cursor.beyond = s.source.cursor.beyond := by
  obtain ⟨steps, hsteps⟩ := h
  obtain ⟨v, hv, -, hstep⟩ := next?_cases hsteps
  obtain ⟨⟨t, hahead⟩, hbeyond, hchain, hdefinitions⟩ := advance?_cases hv
  have hshows : ¬ v.source.ShowsReference env.options.platform := fun h =>
    hs (h.congr hchain hdefinitions)
  obtain ⟨hbeyond', hlighter⟩ := step_lighter hr hshows hu hstep
  refine ⟨Prod.Lex.toLex_lt_toLex.2 ?_, hbeyond'.trans hbeyond⟩
  have hfewer : references v.source.cursor.ahead
      ≤ references s.source.cursor.ahead := by
    rw [hahead]
    exact (List.sublist_cons_self t _).countP_le
  rcases hlighter with he | hlt
  · rw [he]
    rcases hfewer.lt_or_eq with hlt | heq
    · exact Or.inl hlt
    · refine Or.inr ⟨heq, ?_⟩
      rw [hahead]
      exact Nat.lt_succ_self _
  · exact Or.inl (hlt.trans_le hfewer)

/-- The next token is passed, where there is one before the end mark. -/
theorem next_exists (hs : ¬ s.source.ShowsReference env.options.platform)
    (hb : s.source.cursor.beyond.isEof = true) (hv : s.advance? = some v)
    (heof : v.source.cursor.current.isEof = false) : ∃ u, Next env s u := by
  obtain ⟨-, hbeyond, hchain, hdefinitions⟩ := advance?_cases hv
  obtain ⟨steps, hsome⟩ := takeToken_ends v.source.cursor.current
    (fun _ h => hs (h.congr hchain hdefinitions)) (hbeyond ▸ hb)
  obtain ⟨w, hw⟩ := Option.isSome_iff_exists.1 hsome
  refine ⟨w.expandNext env, steps, ?_⟩
  rw [next?_eq hv heof, step_eq, hw]
  rfl

/-- A run ends, where no reference stands for a text that shows one. -/
theorem run_ends (hr : ∀ name file, env.resolver.resolve name file = none)
    (hshows : ∀ u, LeadsTo env s u →
      ¬ u.source.ShowsReference env.options.platform)
    (hb : s.source.cursor.beyond.isEof = true) :
    ∃ steps r, s.run env steps = some r := by
  induction hw : weight .nearest s using WellFoundedLT.induction
    generalizing s with
  | ind w ih =>
      cases hv : s.advance? with
      | none =>
          refine ⟨1, s, ?_⟩
          unfold State.run
          rw [hv]
      | some v =>
          cases heof : v.source.cursor.current.isEof with
          | true =>
              refine ⟨1, v, ?_⟩
              unfold State.run
              rw [hv]
              exact if_pos heof
          | false =>
              have hs := hshows s .refl
              obtain ⟨u, hnext⟩ := next_exists hs hb hv heof
              obtain ⟨hlt, hbeyond⟩ :=
                weight_next hr hs (hshows u (.single hnext)) hnext
              obtain ⟨n, r, hrun⟩ := ih _ (hw ▸ hlt)
                (fun x hx => hshows x (.head hnext hx)) (hbeyond ▸ hb) rfl
              obtain ⟨steps, hsteps⟩ := hnext
              refine ⟨steps + n + 1, r, ?_⟩
              rw [run_next? (next?_more (Nat.le_add_right steps n) hsteps)]
              exact run_more (Nat.le_add_left n steps) hrun

end Ending

end Parse

open Parse

/-- A parse that resolves no include directive ends, or some reference comes to
stand for a text that shows a reference when it is read again. -/
theorem parse_ends_or_shows (env : Environment)
    (hr : ∀ name file, env.resolver.resolve name file = none)
    (cache : TokenCache) (text : String) (path : Option String) :
    (∃ steps r, parse? steps env cache text path = some r)
      ∨ ∃ s, LeadsTo env (.start env cache text path) s
        ∧ s.source.ShowsReference env.options.platform := by
  by_cases hshows : ∃ s, LeadsTo env (.start env cache text path) s
      ∧ s.source.ShowsReference env.options.platform
  · exact Or.inr hshows
  left
  have hbeyond : (State.start env cache text
      path).source.cursor.beyond.isEof = true := by
    have hstart : Sinks env.options.platform
        (State.opened cache text path).source
        (State.start env cache text path).source :=
      (expandAt_sinks _ .nearest hr true).trans (expandAt_sinks _ _ hr true)
    rw [hstart.beyond]
    exact Cursor.isEof_beyond_ofTokens (tokenize text)
  obtain ⟨steps, r, hrun⟩ :=
    run_ends hr (fun u hu h => hshows ⟨u, hu, h⟩) hbeyond
  exact ⟨steps, _, congrArg (Option.map _) hrun⟩

/-- A value that refers to another one is expanded when it is defined. -/
theorem parse_ends_or_shows_value :
    (∀ name file, ({} : Environment).resolver.resolve name file = none)
      ∧ ((∃ steps r, parse? steps {} {}
            "&GLOBAL-DEFINE a x\n&SCOPED-DEFINE b \x7b&a\x7d\n\x7b&b\x7d.\n" none
          = some r)
        ∨ ∃ s, LeadsTo {} (.start {} {}
            "&GLOBAL-DEFINE a x\n&SCOPED-DEFINE b \x7b&a\x7d\n\x7b&b\x7d.\n" none) s
          ∧ s.source.ShowsReference ({} : Environment).options.platform) :=
  ⟨fun _ _ => rfl, parse_ends_or_shows {} (fun _ _ => rfl) {} _ none⟩

-- ================================================================= endless

namespace Parse

/-- A definition whose value shows a reference to it, behind a comment. -/
def endlessText : String :=
  "&SCOPED-DEFINE a /\x7b&u\x7d*\"*/\x7b&a\x7d\"\n\x7b&a\x7d\n"

/-- Its value. -/
def endlessValue : String := "/*\"*/\x7b&a\x7d\""

theorem revives_endlessValue : Revives "a" endlessValue :=
  ⟨by decide +kernel, by decide +kernel⟩

/-- A comment is ahead, the reference of a value that brings itself in again is
behind it, and tokens are looked at. -/
@[mk_iff]
structure Loops (name value : String) (owner : Nat) (s : State) : Prop where
  comment : (s.source.cursor.peekAhead .nearest).kind = .comment
  reviving : Reviving name value owner Ahead.nearest.next s
  skip : s.source.skip = 0
  live : s.nesting.inFalseBranch = false ∧ s.nesting.depth ≠ 0

instance (name value : String) (owner : Nat) (s : State) :
    Decidable (Loops name value owner s) :=
  decidable_of_iff _ (loops_iff name value owner s).symm

section Endless

variable {env : Environment} {name value : String} {owner : Nat} {s : State}

/-- A comment is passed over. -/
theorem takeToken_comment (steps : Nat) {c : Token} (hc : c.kind = .comment)
    (hskip : s.source.skip = 0)
    (hlive : s.nesting.inFalseBranch = false ∧ s.nesting.depth ≠ 0) :
    s.takeToken env steps c = some s.space := by
  have hobserve : s.observe c false = (none, s) := by
    unfold State.observe
    rw [hc]
  have hlook : s.look env steps c none = some s.space.done := by
    unfold State.look State.inFalseBranch
    rw [if_neg hlive.2, hc, hlive.1]
    rfl
  unfold State.takeToken
  dsimp only
  rw [hskip, decide_eq_false (Nat.lt_irrefl 0), hobserve,
    if_neg Bool.false_ne_true, hlook]
  rfl

/-- Behind the comment, the reference is the next token. -/
theorem Loops.advance? (h : Loops name value owner s) :
    ∃ v, s.advance? = some v ∧ v.source.cursor.current.kind = .comment
      ∧ Reviving name value owner .nearest v ∧ v.source.skip = 0
      ∧ v.nesting = s.nesting := by
  obtain ⟨hcomment, ⟨hmeaning, ⟨r, hr, hreference⟩, hfresh⟩, hskip, -⟩ := h
  cases hahead : s.source.cursor.ahead with
  | nil =>
      rw [hahead] at hr
      cases hr
  | cons c rest =>
      let cursor : Cursor :=
        { s.source.cursor with
          passed := c :: s.source.cursor.passed, ahead := rest }
      let source := { s.source with cursor, expanded := s.source.expanded - 1 }
      unfold Cursor.peekAhead at hcomment
      rw [hahead] at hcomment hr
      refine ⟨{ s with source }, ?_, hcomment, ⟨?_, ⟨r, hr, hreference⟩, ?_⟩,
        hskip, rfl⟩
      · unfold State.advance? Cursor.advance?
        rw [hahead]
        rfl
      · have hsame : source.meaning? name owner = s.source.meaning? name owner :=
          meaning?_congr rfl rfl _ _
        exact hsame.trans hmeaning
      · exact Nat.sub_le_of_le_add hfresh

/-- Each token leads to the same again. -/
theorem Loops.next (h : Loops name value owner s) (hv : Revives name value)
    (hdepth : env.options.maxExpansionDepth ≠ 0) (n : Nat) :
    ∃ u, s.next? env n = some u ∧ Loops name value owner u := by
  obtain ⟨v, hadvance, hcomment, hreviving, hskip, hnesting⟩ := h.advance?
  have hlive := hnesting ▸ h.live
  have heof : v.source.cursor.current.isEof = false := by
    rw [Token.isEof, hcomment]
    rfl
  refine ⟨v.space.expandNext env, ?_, ?_⟩
  · rw [next?_eq hadvance heof, step_eq,
      takeToken_comment n hcomment hskip hlive]
    rfl
  · have hspace : Reviving name value owner .nearest v.space :=
      ⟨hreviving.meaning, hreviving.reference, hreviving.fresh⟩
    have hlook : v.space.expandNext env = v.space.expandAt env .nearest true := by
      have hnext : (decide (v.space.source.skip = 0) && !v.space.inFalseBranch)
          = true := by
        rw [show v.space.source.skip = 0 from hskip,
          show v.space.inFalseBranch = false from hlive.1]
        rfl
      unfold State.expandNext
      exact if_pos hnext
    obtain ⟨hcomment', hreviving', hskip'⟩ := hspace.expandAt hv hdepth true
    have hreads := expandAt_readsOn env v.space .nearest true
    rw [hlook]
    exact ⟨hcomment', hreviving', hskip'.trans hskip, hreads.nesting ▸ hlive⟩

/-- And so a run never comes to the end. -/
theorem Loops.run (h : Loops name value owner s) (hv : Revives name value)
    (hdepth : env.options.maxExpansionDepth ≠ 0) (m : Nat) :
    s.run env m = none := by
  induction m generalizing s with
  | zero => rfl
  | succ m ih =>
      obtain ⟨u, hu, hloops⟩ := h.next hv hdepth m
      rw [run_next? hu]
      exact ih hloops

end Endless

theorem endlessText_loops :
    ∃ u ∈ (State.start {} {} endlessText none).onward? {} 40 10,
      Loops "a" endlessValue 0 u := by
  decide +kernel

end Parse

/-- A parse need not end, though nothing is included: at each token the value
brings in as much as it did at the last. -/
theorem parse_endless :
    ¬ ∃ steps r, parse? steps {} {} endlessText none = some r := by
  obtain ⟨u, hu, hloops⟩ := endlessText_loops
  exact parse?_none (leadsTo_of_onward? hu)
    (hloops.run revives_endlessValue (by decide))

end AblOutline
