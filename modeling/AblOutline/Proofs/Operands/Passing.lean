/-
How tokens are passed over. A directive sets a number, and so many tokens are
then passed without a look at them: `Skips`. Nothing is expanded on the way;
the token behind them is expanded once the number is down to nothing
(`skips_passed`).

What is expanded before it is looked at is at most the next token, and at the
very start the first two (`Reached`).
-/
import AblOutline.Proofs.Lines
import AblOutline.Proofs.Operands.Directives
import AblOutline.Proofs.PlainRun
import AblOutline.Proofs.Termination

namespace AblOutline.Parse

open Preprocess

-- ============================================================== next token

section Next

variable {env : Environment} {s : State} {a : Ahead} {t : Token}
  {rest : List Token}

/-- A file that is put in changes neither how many tokens are to be passed
over nor how many are expanded. -/
theorem expandInclude_counts (env : Environment) (s : State) (a : Ahead) :
    (s.expandInclude env a).source.skip = s.source.skip
      ∧ (s.expandInclude env a).source.expanded = s.source.expanded := by
  have htokens : ∀ (source : Source) (path : String),
      (State.tokensAt env.resolver source path).2.skip = source.skip
        ∧ (State.tokensAt env.resolver source path).2.expanded
          = source.expanded := by
    intro source path
    unfold State.tokensAt
    split
    · exact ⟨rfl, rfl⟩
    · dsimp only
      split <;> exact ⟨rfl, rfl⟩
  have hopen : ∀ (source : Source) (name : String) (owner : Nat),
      (State.openInclude env.resolver source name owner).2.2.skip = source.skip
        ∧ (State.openInclude env.resolver source name owner).2.2.expanded
          = source.expanded := by
    intro source name owner
    unfold State.openInclude
    dsimp only
    split
    · exact ⟨rfl, rfl⟩
    · exact htokens _ _
  unfold State.expandInclude State.includeAt
  dsimp only
  split
  · split
    · exact ⟨rfl, rfl⟩
    · split
      · exact ⟨rfl, rfl⟩
      · split
        · exact hopen _ _ _
        · exact hopen _ _ _
  · exact ⟨rfl, rfl⟩

/-- Nor does expansion; it counts the place as expanded. -/
theorem expandAt_counts (env : Environment) (s : State) (a : Ahead) :
    (s.expandAt env a true).source.skip = s.source.skip
      ∧ (s.expandAt env a true).source.expanded
        = max s.source.expanded a.distance := by
  obtain ⟨ps, hps⟩ := expandAt_expansion env s a true
  generalize s.expandAt env a true = u at hps ⊢
  cases hps with
  | handled h =>
      have hlt : a.skipped < s.source.expanded := of_decide_eq_true h
      exact ⟨rfl, (Nat.max_eq_left hlt).symm⟩
  | @rounds ps r hnot hgo hend =>
      obtain ⟨hreads, -⟩ := hgo.reads
      obtain ⟨hskip, hexpanded⟩ := expandInclude_counts env r.state a
      refine ⟨hskip.trans hreads.source.skip, ?_⟩
      show max (r.state.expandInclude env a).source.expanded a.distance = _
      rw [hexpanded, hreads.source.expanded]

theorem expandNext_skip (env : Environment) (s : State) :
    (s.expandNext env).source.skip = s.source.skip := by
  unfold State.expandNext
  split
  · exact (expandAt_counts env s .nearest).1
  · rfl

theorem expandNext_expanded (env : Environment) (s : State) :
    (s.expandNext env).source.expanded ≤ max s.source.expanded 1 := by
  unfold State.expandNext
  split
  · exact Nat.le_of_eq (expandAt_counts env s .nearest).2
  · exact Nat.le_max_left _ _

/-- While tokens are to be passed over, the next one is not expanded. -/
theorem expandNext_of_skip (h : s.source.skip ≠ 0) :
    s.expandNext env = s := by
  unfold State.expandNext
  rw [decide_eq_false h]
  rfl

/-- A token that stands for itself stays as it is. -/
theorem expandNext_plain (env : Environment)
    (h : s.source.cursor.ahead = t :: rest) (ht : IsPlain t) :
    ∃ n, s.expandNext env = s.expandedTo n := by
  have hrefs : s.referencesAt .nearest = [] := by
    unfold State.referencesAt
    rw [h]
    exact List.takeWhile_cons_of_neg (by simpa using ht.1)
  have hsettle : ∀ depth, s.settle env.options.platform .nearest depth = s := by
    intro depth
    cases depth with
    | zero => rfl
    | succ depth =>
        unfold State.settle
        rw [hrefs]
        rfl
  have hpeek : s.source.cursor.peekAhead .nearest = t := by
    unfold Cursor.peekAhead
    rw [h]
    rfl
  unfold State.expandNext
  split
  · unfold State.expandAt
    split
    · exact ⟨s.source.expanded, rfl⟩
    · rw [hsettle]
      unfold State.expandInclude
      dsimp only
      rw [if_pos rfl, hpeek, if_neg ht.2]
      exact ⟨_, rfl⟩
  · exact ⟨s.source.expanded, rfl⟩

end Next

-- ================================================================= passing

/-- The tokens `ts` are passed over from `s` on without a look at any of them,
up to `u`, where the next token will be looked at. -/
inductive Skips (env : Environment) : State → List Token → State → Prop where
  | done {s : State} (hskip : s.source.skip = 0) : Skips env s [] s
  | pass {s v u w : State} {ts : List Token} (hv : s.advance? = some v)
      (heof : v.source.cursor.current.isEof = false)
      (hskip : v.source.skip ≠ 0)
      (hu : ∀ steps, v.step env steps v.source.cursor.current = some u)
      (h : Skips env u ts w) :
      Skips env s (v.source.cursor.current :: ts) w

/-- The state `s` has moved on behind `ts`, and only line ends were recorded on
the way. -/
structure MovedBehind (ts : List Token) (s m : State) : Prop where
  source : m.source = { s.source with
    cursor := { s.source.cursor with
      passed := ts.reverse ++ s.source.cursor.passed
      ahead := m.source.cursor.ahead }
    skip := 0
    expanded := s.source.expanded - ts.length }
  nesting : m.nesting = s.nesting
  analysis : m.analysis = s.analysis

section Passing

variable {env : Environment} {s : State} {ts rest : List Token}

theorem observe_rest (s : State) (t : Token) :
    (s.observe t true).2.source = s.source
      ∧ (s.observe t true).2.nesting = s.nesting
      ∧ (s.observe t true).2.analysis = s.analysis := by
  unfold State.observe
  cases t.kind <;> exact ⟨rfl, rfl, rfl⟩

/-- As many tokens as are to be passed over are passed, and then the next one
is expanded. -/
theorem skips_passed (env : Environment)
    (hskip : s.source.skip = ts.length)
    (hahead : s.source.cursor.ahead = ts ++ rest)
    (hts : ∀ t ∈ ts, t.isEof = false) :
    ∃ m, Skips env (s.expandNext env) ts (m.expandNext env)
      ∧ MovedBehind ts s m ∧ m.source.cursor.ahead = rest := by
  induction ts generalizing s with
  | nil =>
      refine ⟨s, .done ((expandNext_skip env s).trans hskip), ⟨?_, rfl, rfl⟩,
        hahead⟩
      obtain ⟨⟨cursor, chain, definitions, skip⟩, nesting, findings, analysis⟩ := s
      cases hskip
      rfl
  | cons t ts ih =>
      obtain ⟨ht, hts⟩ := List.forall_mem_cons.1 hts
      have hne : s.source.skip ≠ 0 := by
        rw [hskip]
        exact Nat.succ_ne_zero _
      have hv : s.advance? = some (s.moved t (ts ++ rest)) :=
        advance?_eq hahead
      obtain ⟨hsource, hnesting, hanalysis⟩ :=
        observe_rest (s.moved t (ts ++ rest)) t
      generalize hw : ((s.moved t (ts ++ rest)).observe t true).2 = w
        at hsource hnesting hanalysis
      have hstep : ∀ steps, (s.moved t (ts ++ rest)).step env steps t
          = some (State.expandNext env
              { w with source := { w.source with skip := ts.length } }) := by
        intro steps
        have hlt : 0 < (s.moved t (ts ++ rest)).source.skip :=
          Nat.pos_of_ne_zero hne
        have hless : w.source.skip - 1 = ts.length := by
          rw [hsource]
          show s.source.skip - 1 = ts.length
          rw [hskip]
          rfl
        unfold State.step
        simp only [hlt, decide_true, if_true, hw, hless]
      obtain ⟨m, hskips, hmoved, hrest⟩ :=
        ih (s := { w with source := { w.source with skip := ts.length } })
          rfl (by
            show w.source.cursor.ahead = _
            rw [hsource]
            rfl) hts
      refine ⟨m, ?_, ⟨?_, ?_, ?_⟩, hrest⟩
      · rw [expandNext_of_skip hne]
        exact .pass hv ht hne hstep hskips
      · rw [hmoved.source]
        dsimp only
        rw [hsource]
        unfold State.moved
        dsimp only
        rw [List.reverse_cons, List.append_assoc, Nat.sub_sub, List.length_cons,
          Nat.add_comm 1]
        rfl
      · exact hmoved.nesting.trans hnesting
      · exact hmoved.analysis.trans hanalysis

end Passing

-- ================================================================ reached

/-- What holds wherever a parse has come: the stream ends with one end mark,
and no more than the next two tokens are expanded. -/
structure Reached (last : Nat) (s : State) : Prop where
  sound : Sound s
  within : Within last s.source
  expanded : s.source.expanded ≤ 2

section Reached

variable {env : Environment} {steps last : Nat} {s s' u v : State} {t : Token}

/-- To read operands is to read ahead, and to say how many tokens they are. -/
theorem ReadsOperands.readAhead (hb : s.source.cursor.beyond.isEof = true)
    (h : ReadsOperands env steps s u) :
    ReadAhead s.source { u.source with skip := s.source.skip } := by
  have hskipping : ∀ {w : State} {o : Operands}, ReadAhead s.source w.source →
      ReadAhead s.source
        { (w.skipping o).source with skip := s.source.skip } := by
    intro w o hw
    have hsame : { (w.skipping o).source with skip := s.source.skip }
        = w.source := by
      rw [← hw.skip]
      rfl
    rw [hsame]
    exact hw
  rcases h with rfl | ⟨live, o, hu⟩ | ⟨live, o, hu⟩
  · exact .refl _
  · obtain ⟨⟨w, o'⟩, hw, he⟩ := Option.map_eq_some_iff.1 hu
    cases he
    obtain ⟨_, _, _, hread, -⟩ :=
      readCondition_condition hb (.nearest _) hw
    exact hskipping hread.source
  · obtain ⟨⟨w, o'⟩, hw, he⟩ := Option.map_eq_some_iff.1 hu
    cases he
    obtain ⟨_, _, _, hread, -⟩ :=
      readLine_line hb (.nearest _) hw
    exact hskipping hread.source

theorem takeToken_expanded (hb : s.source.cursor.beyond.isEof = true)
    (h : s.takeToken env steps t = some u) :
    u.source.expanded = s.source.expanded := by
  have hsource := observe_source s t (decide (0 < s.source.skip))
  unfold State.takeToken at h
  dsimp only at h
  split at h
  · cases h
    exact congrArg (·.expanded) hsource
  · obtain ⟨out, hout, rfl⟩ := Option.map_eq_some_iff.1 h
    obtain ⟨w, hread, hstream, -⟩ := look_onlyReads hout
    rw [← hsource] at hb ⊢
    exact (congrArg (·.2.2.1) hstream).trans (hread.readAhead hb).expanded

theorem Reached.start (env : Environment) (cache : TokenCache) (text : String)
    (path : Option String) :
    Reached (lineBreaks text.toList) (.start env cache text path) := by
  refine ⟨.start env cache text path, .start env cache text path, ?_⟩
  unfold State.start
  rw [(expandAt_counts env _ _).2, (expandAt_counts env _ _).2]
  exact Nat.le_refl _

/-- The cursor moves on to the next token. -/
theorem Reached.advance (h : Reached last s) (hv : s.advance? = some v)
    (heof : v.source.cursor.current.isEof = false) :
    Sound v ∧ Within last v.source ∧ v.source.expanded ≤ 1 := by
  obtain ⟨u, hu, hcurrent⟩ := h.within.advance
  obtain rfl : u = v := Option.some.inj (hu.symm.trans hv)
  rw [heof, if_neg Bool.false_ne_true] at hcurrent
  refine ⟨(advance_keeps hv).sound h.sound, hcurrent.1, ?_⟩
  obtain ⟨cursor, -, rfl⟩ := Option.map_eq_some_iff.1 hv
  have hle := h.expanded
  show s.source.expanded - 1 ≤ 1
  omega

theorem Reached.next (h : Reached last s) (hnext : Next env s u) :
    Reached last u := by
  obtain ⟨steps, hsteps⟩ := hnext
  obtain ⟨v, hv, heof, hstep⟩ := next?_cases hsteps
  obtain ⟨hsound, hwithin, hexpanded⟩ := h.advance hv heof
  refine ⟨hsound.step hstep, hwithin.edits (step_edits hstep), ?_⟩
  rw [step_eq] at hstep
  obtain ⟨w, hw, rfl⟩ := Option.map_eq_some_iff.1 hstep
  have hsame := takeToken_expanded hwithin.beyond hw
  have hle := expandNext_expanded env w
  omega

/-- Once the next token is expanded the cursor moves on to it: to the one that
stands ahead, where that stands for itself. -/
theorem next_of_within (env : Environment) (hw : Within last s.source) :
    ∃ x, (s.expandNext env).advance? = some x ∧ x.source.skip = s.source.skip
      ∧ x.source.cursor.passed
        = x.source.cursor.current :: s.source.cursor.passed
      ∧ ∀ next ∈ s.source.cursor.ahead.head?,
        IsPlain next → x.source.cursor.current = next := by
  have hedits := expandNext_edits env s
  have hskip := expandNext_skip env s
  obtain ⟨x, hx, -⟩ := (hw.edits hedits).advance
  obtain ⟨⟨t, hahead⟩, -⟩ := advance?_cases hx
  generalize x.source.cursor.ahead = more at hahead
  obtain rfl := Option.some.inj ((advance?_eq hahead).symm.trans hx)
  refine ⟨_, hx, hskip, congrArg (t :: ·) hedits.passed,
    fun next hnext hplain => ?_⟩
  obtain ⟨rest, hstands⟩ := List.head?_eq_some_iff.1 hnext
  obtain ⟨n, hn⟩ := expandNext_plain env hstands hplain
  rw [hn] at hahead
  exact (List.cons.inj (hahead.symm.trans hstands)).1

/-- It holds of every state that a parse comes to. -/
theorem LeadsTo.reached (h : LeadsTo env s u) (hs : Reached last s) :
    Reached last u := by
  induction h with
  | refl => exact hs
  | tail _ hnext ih => exact ih.next hnext

end Reached

end AblOutline.Parse
