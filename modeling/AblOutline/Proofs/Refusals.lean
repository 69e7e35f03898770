/-
What cannot be read leaves no trace. A statement that ends with a fault was
refused before anything was done, so but for a label that waits no longer the
state is as it was (`endStatement_refused`). A directive that names nothing
has passed its operands over and changes nothing else, but that references
give way among the operands of `&GLOBAL-DEFINE` and `&SCOPED-DEFINE`, and each
is put down as a use (`directive_unnamed`):

    PROCEDURE .               nothing
    &UNDEFINE                 nothing
    &GLOBAL-DEFINE {&u}       a use of u

After either the parse goes on with the next token (`GoesOn`).
-/
import AblOutline.Proofs.Operands.Passing
import AblOutline.Proofs.Scopes.Faults

namespace AblOutline.Parse

open Preprocess

-- ============================================================== statements

section Statements

variable (env : Environment) {s : State} {st : Statement} {f : AnalysisFault}

/-- What a scope, a label or a function refers to does not depend on the
trigger. -/
theorem Grounded.under (h : Grounded s) (trigger : Option ItemId) :
    Grounded (s.under trigger) :=
  ⟨h.scope, h.label, h.prototype, h.implementation⟩

theorem under_under (s : State) (trigger : Option ItemId) :
    (s.under trigger).under s.analysis.statement.trigger = s := rfl

/-- A label is no fault. -/
theorem endByKind_label {colon : Bool}
    (h : (s.endByKind env st colon).1.fault = some f) :
    (s.endByKind env st colon).2 = false := by
  unfold State.endByKind at h ⊢
  cases hk : st.kind with
  | other =>
      rw [hk] at h
      dsimp only at h
      split at h
      · cases h
      · cases h
  | procedure | function | method | constructor | destructor | on | run
  | define | var | close | block | accessor => rfl

/-- A statement that ends with a fault leaves the state as it was, but that
no label waits for a block after it. -/
theorem endStatement_refused (hg : Grounded s) (stop : Token)
    (h : (s.endStatement env st stop).fault = some f) :
    (s.endStatement env st stop).state
      = { s with analysis := { s.analysis with pendingLabel := none } } := by
  obtain ⟨hstate, -⟩ :=
    endByKind_refuses env _ st (hg.under st.trigger) (stop.text == ":") f h
  have hlabel := endByKind_label env h
  unfold State.endStatement
  dsimp only
  rw [hstate, hlabel, under_under]
  rfl

end Statements

-- ============================================================== directives

section Directives

variable {env : Environment} {steps : Nat} {s u : State} {t : Token}
  {o : Operands}

/-- In `s` the directive `t` names nothing: `u` is the state in which its
operands are to be passed over, and nothing else was done but that the
references that gave way among them, `used`, were put down. -/
structure Unnamed (env : Environment) (steps : Nat) (s : State) (t : Token)
    (u : State) (used : List Token) : Prop where
  /-- On a branch that is not taken the operands are passed over all the
  same, so there nothing is amiss. -/
  outcome : s.directive env steps t = some
    { state := u
      fault := if s.inFalseBranch then none
        else some (.missingName t.text t.lineNumber) }
  /-- They are operands right ahead of it. -/
  operands : ∃ passed rest, ReadsLine (s.expandsOperands t)
    s.source.cursor.ahead used passed rest
  state : u = { s.noteUses env.options.platform used with source := u.source }
  definitions : u.source.definitions = s.source.definitions

/-- Where references do not count, none gives way. -/
theorem ReadsLine.used_of_false {ts used passed rest : List Token}
    (h : ReadsLine false ts used passed rest) : used = [] := by
  induction h with
  | stop => rfl
  | goesOn _ _ _ ih | token _ _ _ ih => exact ih
  | value hlive => cases hlive

/-- A directive that names nothing changes nothing but the source ahead, and
puts down the references used. -/
theorem directive_unnamed (hb : s.source.cursor.beyond.isEof = true)
    (hd : (Directive.ofWord t.text).namesValue = true)
    (h : s.takeOperands env steps t = some (u, o)) (hnone : o.first? = none) :
    ∃ used, Unnamed env steps s t u used
      ∧ (s.expandsOperands t = false → used = []) := by
  obtain ⟨used, passed, rest, v, hread, hbehind, rfl⟩ := takeOperands_read hb h
  have htakesLine := Directive.takesLine_of_namesValue hd
  have htakes : (Directive.ofWord t.text).takesOperands = true := by
    rw [Directive.takesOperands, htakesLine]
    rfl
  have hline := hread.line htakesLine
  refine ⟨used, ⟨?_, ⟨passed, rest, hline⟩, ?_, hbehind.source.definitions⟩,
    fun hlive => ?_⟩
  · obtain ⟨work, hwork, hcarries⟩ := directive_eq_map env s htakes
    rw [hwork, h]
    exact congrArg some ((hcarries _).unnamed hd hnone)
  · unfold State.skipping
    rw [hbehind.state]
  · rw [hlive] at hline
    exact hline.used_of_false

/-- `&UNDEFINE` expands nothing, and neither does any of them on a branch that
is not taken. -/
theorem expandsOperands_eq_false (hd : (Directive.ofWord t.text).namesValue = true)
    (h : Directive.ofWord t.text = .undefine ∨ s.inFalseBranch = true) :
    s.expandsOperands t = false := by
  unfold State.expandsOperands
  cases hw : Directive.ofWord t.text with
  | globalDefine | scopedDefine =>
      rw [hw] at h
      rcases h with h | h
      · cases h
      · exact congrArg (!·) h
  | ifThen | elseIf => rw [hw] at hd; cases hd
  | undefine | otherwise | endIf | thenPart | analyzeSuspend | analyzeResume
  | message | other => rfl

end Directives

-- ==================================================================== passes

section Passes

variable {env : Environment} {steps : Nat} {r s v : State} {out : Outcome}
  {f : AnalysisFault}

/-- Before the token after `r` is done with, the parse comes to be in the
state `s`. -/
inductive Along (r : State) : State → Prop where
  | here : Along r r
  | advanced {v : State} (hv : r.advance? = some v) : Along r v
  | observed {s : State} (h : Along r s) (t : Token) (skipped : Bool) :
      Along r (s.observe t skipped).2
  | spaced {s : State} (h : Along r s) : Along r s.space
  /-- At the end of the tokens the last line is recorded .. -/
  | recorded {s : State} (h : Along r s) (line : Nat) :
      Along r (s.recordLine line)
  /-- .. and the last statement taken. -/
  | taken {s : State} (h : Along r s) : Along r s.takeStatement.2

theorem Along.kept (h : Along r s) :
    Keeps r s ∧ s.source.cursor.beyond = r.source.cursor.beyond := by
  induction h with
  | here => exact ⟨.refl r, rfl⟩
  | advanced hv => exact ⟨advance_keeps hv, (advance?_cases hv).2.1⟩
  | observed _ t skipped ih =>
      exact ⟨ih.1.trans (observe_keeps _ t skipped),
        (congrArg (·.cursor.beyond) (observe_source _ t skipped)).trans ih.2⟩
  | spaced _ ih => exact ⟨ih.1.trans (space_keeps _), ih.2⟩
  | recorded _ line ih =>
      exact ⟨ih.1.trans (.one fun _ => .lineEnded _ line), ih.2⟩
  | taken _ ih => exact ⟨ih.1.trans (takeStatement_keeps _), ih.2⟩

/-- From `r` the parse moved on to `v`, and the look at the token there came
to `out`. It goes on with the next token. -/
structure GoesOn (env : Environment) (steps : Nat) (r v : State)
    (out : Outcome) : Prop where
  run : r.run env (steps + 1) = (out.state.expandNext env).run env steps
  /-- That is the one ahead, but for what it stands for. -/
  next : ∃ x, (out.state.expandNext env).advance? = some x
    ∧ x.source.cursor.passed = x.source.cursor.current :: v.source.cursor.passed
    ∧ ∀ next ∈ out.state.source.cursor.ahead.head?,
      IsPlain next → x.source.cursor.current = next

/-- Whatever a look at a token comes to, the parse goes on. -/
theorem goesOn_of_look {last : Nat} (hr : Reached last r)
    (hv : r.advance? = some v) (heof : v.source.cursor.current.isEof = false)
    (hskip : v.source.skip = 0)
    (hlook : (v.observe v.source.cursor.current false).2.look env steps
        v.source.cursor.current (v.observe v.source.cursor.current false).1
      = some out) : GoesOn env steps r v out := by
  have hstep : v.step env steps v.source.cursor.current
      = some (out.state.expandNext env) := by
    unfold State.step
    simp only [hskip, Nat.lt_irrefl, decide_false, Bool.false_eq_true,
      if_false, hlook, Option.bind_eq_bind, Option.bind_some]
  have hedits := (look_onlyReads hlook).edited.source
  rw [observe_source] at hedits
  obtain ⟨-, hwithin, -⟩ := hr.advance hv heof
  obtain ⟨x, hx, -, hpassed, hnext⟩ :=
    next_of_within env (hwithin.edits hedits)
  refine ⟨run_next? ((next?_eq hv heof).trans hstep), x, hx, ?_, hnext⟩
  rw [hpassed, hedits.passed]

/-- In all states that a parse comes to: a statement of any kind that ends with
a fault leaves the state as it was, but that no label waits any longer; a
directive that names nothing passes its operands over and changes nothing else,
but that the references that gave way among them are put down as uses, and none
does for `&UNDEFINE`. After a fault the parse goes on with the next token. -/
theorem faults_leave_no_trace (env : Environment) (cache : TokenCache)
    (text : String) (path : Option String) {r : State}
    (hr : LeadsTo env (.start env cache text path) r) :
    (∀ s, Along r s →
      (∀ st stop f, (s.endStatement env st stop).fault = some f →
        (s.endStatement env st stop).state
          = { s with analysis := { s.analysis with pendingLabel := none } })
      ∧ ∀ steps t u o, (Directive.ofWord t.text).namesValue = true →
        s.takeOperands env steps t = some (u, o) → o.first? = none →
        ∃ used, Unnamed env steps s t u used
          ∧ (Directive.ofWord t.text = .undefine ∨ s.inFalseBranch = true →
            used = []))
    ∧ ∀ steps v out f, r.advance? = some v →
      v.source.cursor.current.isEof = false → v.source.skip = 0 →
      (v.observe v.source.cursor.current false).2.look env steps
          v.source.cursor.current (v.observe v.source.cursor.current false).1
        = some out →
      out.fault = some f → GoesOn env steps r v out := by
  have hreached := hr.reached (.start env cache text path)
  refine ⟨fun s hs => ?_, fun steps v out f hv heof hskip hlook _ =>
    goesOn_of_look hreached hv heof hskip hlook⟩
  obtain ⟨hkeeps, hbeyond⟩ := hs.kept
  have hsound := hkeeps.sound hreached.sound
  refine ⟨fun st stop f h => endStatement_refused env hsound.grounded stop h,
    fun steps t u o hd htake hnone => ?_⟩
  have hb : s.source.cursor.beyond.isEof = true :=
    hbeyond ▸ hreached.within.beyond
  obtain ⟨used, hunnamed, hused⟩ := directive_unnamed hb hd htake hnone
  exact ⟨used, hunnamed, fun h => hused (expandsOperands_eq_false hd h)⟩

/-- A procedure and a directive, neither of which names anything. -/
def unnamedText : String := "PROCEDURE .\n&UNDEFINE ~\n\n"

/-- The statement ends with a fault and the parse goes on; the directive then
uses nothing. -/
theorem faults_leave_no_trace_unnamed :
    (∃ r v st out, LeadsTo {} (.start {} {} unnamedText none) r
      ∧ r.advance? = some v ∧ (v.observe v.source.cursor.current false).1 = some st
      ∧ (v.observe v.source.cursor.current false).2.look {} 60
        v.source.cursor.current (some st) = some out
      ∧ out.fault = some (.missingName "PROCEDURE" 1) ∧ GoesOn {} 60 r v out
      ∧ ∀ s, s = (v.observe v.source.cursor.current false).2.space →
        (s.endStatement {} st v.source.cursor.current).fault
            = some (.missingName "PROCEDURE" 1)
          ∧ (s.endStatement {} st v.source.cursor.current).state
            = { s with analysis := { s.analysis with pendingLabel := none } })
    ∧ ∃ r v u, LeadsTo {} (.start {} {} unnamedText none) r
      ∧ r.advance? = some v ∧ v.source.cursor.current.text = "&UNDEFINE"
      ∧ Unnamed {} 60 v v.source.cursor.current u [] := by
  constructor
  · have hrun : ((State.onward? {} 60 2 (.start {} {} unnamedText none)).bind
        fun r => r.advance?.bind fun v =>
          let o := v.observe v.source.cursor.current false
          o.1.bind fun st => (o.2.look {} 60 v.source.cursor.current
            (some st)).map fun out => (v.source.skip,
              v.source.cursor.current.isEof, out.fault,
              (o.2.space.endStatement {} st v.source.cursor.current).fault))
        = some (0, false, some (.missingName "PROCEDURE" 1),
          some (.missingName "PROCEDURE" 1)) := by
      decide +kernel
    obtain ⟨r, hr, hrun⟩ := Option.bind_eq_some_iff.1 hrun
    obtain ⟨v, hv, hrun⟩ := Option.bind_eq_some_iff.1 hrun
    obtain ⟨st, hst, hrun⟩ := Option.bind_eq_some_iff.1 hrun
    obtain ⟨out, hout, hrun⟩ := Option.map_eq_some_iff.1 hrun
    simp only [Prod.mk.injEq] at hrun
    obtain ⟨hskip, heof, hfault, hend⟩ := hrun
    have hleads := leadsTo_of_onward? hr
    obtain ⟨hclean, hgoes⟩ := faults_leave_no_trace {} {} unnamedText none hleads
    refine ⟨r, v, st, out, hleads, hv, hst, hout, hfault,
      hgoes 60 v out _ hv heof hskip (hst.symm ▸ hout) hfault, ?_⟩
    rintro s rfl
    exact ⟨hend, (hclean _ (.spaced (.observed (.advanced hv) _ false))).1 st _ _
      hend⟩
  · have hrun : ((State.onward? {} 60 4 (.start {} {} unnamedText none)).bind
        fun r => r.advance?.bind fun v =>
          (v.takeOperands {} 60 v.source.cursor.current).map fun u =>
            (v.source.cursor.current.text, u.2.first?))
        = some ("&UNDEFINE", none) := by
      decide +kernel
    obtain ⟨r, hr, hrun⟩ := Option.bind_eq_some_iff.1 hrun
    obtain ⟨v, hv, hrun⟩ := Option.bind_eq_some_iff.1 hrun
    obtain ⟨⟨u, o⟩, hu, hrun⟩ := Option.map_eq_some_iff.1 hrun
    simp only [Prod.mk.injEq] at hrun
    obtain ⟨htext, hnone⟩ := hrun
    have hword : Directive.ofWord v.source.cursor.current.text = .undefine := by
      rw [htext]
      decide +kernel
    have hleads := leadsTo_of_onward? hr
    obtain ⟨used, hunnamed, hused⟩ :=
      ((faults_leave_no_trace {} {} unnamedText none hleads).1 v
        (.advanced hv)).2 60 _ u o (by rw [hword]; rfl) hu hnone
    rw [hused (Or.inl hword)] at hunnamed
    exact ⟨r, v, u, hleads, hv, htext, hunnamed⟩

/-- A definition of no name still puts down the reference that gave way among
its operands. -/
theorem unnamed_define_puts_down_use :
    ∃ r v out, LeadsTo {} (.start {} {} "&GLOBAL-DEFINE \x7b&u\x7d\n" none) r
      ∧ r.advance? = some v ∧ v.source.skip = 0
      ∧ v.source.cursor.current.kind = .directive
      ∧ v.directive {} 60 v.source.cursor.current = some out
      ∧ out.fault = some (.missingName "&GLOBAL-DEFINE" 1)
      ∧ out.state.findings.items ≠ v.findings.items := by
  have hrun : ((State.onward? {} 60 0
        (.start {} {} "&GLOBAL-DEFINE \x7b&u\x7d\n" none)).bind
      fun r => r.advance?.bind fun v =>
        (v.directive {} 60 v.source.cursor.current).map fun out =>
          (v.source.skip, v.source.cursor.current.kind, out.fault,
            v.findings.items.size, out.state.findings.items.size))
      = some (0, .directive, some (.missingName "&GLOBAL-DEFINE" 1), 1, 2) := by
    decide +kernel
  obtain ⟨r, hr, hrun⟩ := Option.bind_eq_some_iff.1 hrun
  obtain ⟨v, hv, hrun⟩ := Option.bind_eq_some_iff.1 hrun
  obtain ⟨out, hout, hrun⟩ := Option.map_eq_some_iff.1 hrun
  simp only [Prod.mk.injEq] at hrun
  obtain ⟨hskip, hk, hfault, hbefore, hafter⟩ := hrun
  refine ⟨r, v, out, leadsTo_of_onward? hr, hv, hskip, hk, hout, hfault,
    fun he => ?_⟩
  rw [he, hbefore] at hafter
  cases hafter

end Passes

end AblOutline.Parse
