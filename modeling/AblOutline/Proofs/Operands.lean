/-
The operands of a directive never get into a statement. Whatever directive
reads them, they are passed over to the last, without a look at any of them
and without putting in a file; the next token that is looked at is the one
right behind them, expanded then and not before:

    &MESSAGE a {&x} ~⏎       passed over from here ..
      b {inc.i}⏎             .. to here; the line break is looked at
    &IF {&x} = 1 &THEN {inc.i}
             `&THEN` is passed over, then the file is put in

So it is in every state that a parse comes to (`operands_passed_over`). The
operands come to their end, unless they are expanded and a value among them
shows a reference when it is read again; then they may not
(`operands_endless`):

    &SCOPED-DEFINE a /{&u}*"*/{&a}"
    &IF {&a} &THEN RUN p.        a comment, {&a}, .. without end
-/
import AblOutline.Proofs.Operands.Passing

namespace AblOutline.Parse

open Preprocess

section Operands

variable {env : Environment} {steps : Nat} {v u : State} {t : Token}

/-- From `v`, at the directive `t`, its operands `passed` are passed over up to
the state `m`, before the token behind them is expanded; `used` are the
references that gave way among them. -/
structure PassesOperands (env : Environment) (v : State) (t : Token)
    (u : State) (used passed : List Token) (m : State) : Prop where
  /-- They are the operands of the directive, right ahead of it. -/
  read : OperandsRead (.ofWord t.text) (v.expandsOperands t)
    v.source.cursor.ahead used passed m.source.cursor.ahead
  /-- All of them are passed over, and then the next token is expanded. -/
  skips : Skips env u passed (m.expandNext env)
  order : m.source.cursor.passed = passed.reverse ++ v.source.cursor.passed
  /-- They are no part of a statement and end none. -/
  analysis : m.analysis = v.analysis
  /-- No file was put in for them, nor looked for. -/
  chain : m.source.chain = v.source.chain
  asked : m.source.asked = v.source.asked
  /-- What stands behind them is not expanded before. -/
  fresh : passed ≠ [] → m.source.expanded = 0
  /-- The end of a line is a line break or end mark of the stream. -/
  line : (Directive.ofWord t.text).takesLine = true →
    m.source.cursor.ahead <:+ v.source.cursor.ahead
      ∧ ∀ stop ∈ m.source.cursor.ahead.head?, stop.kind = .eol ∨ stop.kind = .eof
  /-- The next token is looked at, and is the one that stands there. -/
  next : ∃ x, (m.expandNext env).advance? = some x ∧ x.source.skip = 0
    ∧ ∀ stop ∈ m.source.cursor.ahead.head?,
      IsPlain stop → x.source.cursor.current = stop

/-- At a directive that is looked at, a step is what the directive does. -/
theorem takeToken_directive (hs : Sound v) (hskip : v.source.skip = 0)
    (hk : t.kind = .directive) :
    v.takeToken env steps t = (v.directive env steps t).map (·.state) := by
  have hobserve : v.observe t false = (none, v) := by
    unfold State.observe
    rw [hk]
  unfold State.takeToken
  rw [hskip]
  simp only [Nat.lt_irrefl, decide_false, hobserve, Bool.false_eq_true,
    if_false]
  unfold State.look
  rw [if_neg hs.depth_ne_zero, hk]

/-- An `&IF` is not done with when its condition is not read. -/
theorem step_ifThen_none (hs : Sound v) (hskip : v.source.skip = 0)
    (hk : t.kind = .directive) (hif : Directive.ofWord t.text = .ifThen)
    (hlive : v.inFalseBranch = false)
    (hread : readCondition env true steps .nearest v = none) :
    v.step env steps t = none := by
  rw [step_eq, takeToken_directive hs hskip hk]
  unfold State.directive State.openIf State.takeCondition
  rw [hif, hlive]
  dsimp only
  rw [Bool.not_false, hread]
  rfl

/-- The end mark still stands ahead where other tokens have been passed. -/
theorem Within.behind {last : Nat} {source source' : Source}
    {ts rest : List Token} (h : Within last source)
    (hahead : source.cursor.ahead = ts ++ rest)
    (hts : ∀ t ∈ ts, t.isEof = false)
    (hcursor : source'.cursor.ahead = rest)
    (hbeyond : source'.cursor.beyond = source.cursor.beyond)
    (hchain : source'.chain = source.chain) : Within last source' := by
  have hmem : ∀ t ∈ rest, t ∈ source.cursor.ahead := by
    rw [hahead]
    exact fun t ht => List.mem_append_right _ ht
  obtain ⟨mark, hmark, hlast⟩ := h.mark
  refine ⟨hbeyond ▸ h.beyond, ?_, ?_, mark, ?_, ?_⟩
  · rw [hcursor, hchain]
    exact fun t ht => h.known t (hmem t ht)
  · rw [hcursor, hchain]
    exact fun t ht => h.lines t (hmem t ht)
  · have hnone : ts.filter (·.isEof) = [] :=
      List.filter_eq_nil_iff.2 fun t ht => by rw [hts t ht]; nofun
    rw [hahead, List.filter_append, hnone] at hmark
    rw [hcursor]
    exact hmark
  · rw [hchain]
    exact hlast

/-- What is left to be done after a directive is to pass over its operands. -/
theorem passesOperands_of_step {last : Nat} (hs : Sound v)
    (hw : Within last v.source) (hexpanded : v.source.expanded ≤ 1)
    (hskip : v.source.skip = 0) (hk : t.kind = .directive)
    (htakes : (Directive.ofWord t.text).takesOperands = true)
    (h : v.step env steps t = some u) :
    ∃ used passed m, PassesOperands env v t u used passed m := by
  rw [step_eq, takeToken_directive hs hskip hk, Option.map_map] at h
  obtain ⟨out, hout, rfl⟩ := Option.map_eq_some_iff.1 h
  obtain ⟨w, o, htake, hleaves⟩ := directive_takes htakes hout
  obtain ⟨used, passed, rest, y, hread, hbehind, rfl⟩ :=
    takeOperands_read hw.beyond htake
  have hahead : out.state.source.cursor.ahead = passed ++ rest := by
    rw [hleaves.source]
    exact hbehind.ahead
  have hcount : out.state.source.skip = passed.length := by
    rw [hleaves.source]
    exact hbehind.count
  obtain ⟨m, hskips, hmoved, hrest⟩ :=
    skips_passed env hcount hahead hread.isEof_passed
  have hchain : m.source.chain = out.state.source.chain := by
    rw [hmoved.source]
  have hwithin : Within last m.source := by
    refine (hw.edits (directive_onlyReads hout).edited.source).behind hahead
      hread.isEof_passed hrest ?_ hchain
    rw [hmoved.source]
  refine ⟨used, passed, m, ?_, hskips, ?_, ?_, ?_, ?_, fun hne => ?_,
    fun hline => ?_, ?_⟩
  · rw [hrest]
    exact hread
  · rw [hmoved.source, hleaves.source]
    exact congrArg (passed.reverse ++ ·) hbehind.source.passed
  · exact hmoved.analysis.trans (hleaves.analysis.trans hbehind.analysis)
  · rw [hchain, hleaves.source]
    exact hbehind.source.chain
  · rw [hmoved.source, hleaves.source]
    exact hbehind.source.asked
  · have hsame : out.state.source.expanded = v.source.expanded := by
      rw [hleaves.source]
      exact hbehind.source.expanded
    have hpos := List.length_pos_iff.2 hne
    rw [hmoved.source]
    show out.state.source.expanded - passed.length = 0
    omega
  · have hreads := hread.line hline
    rw [hrest]
    exact ⟨hreads.suffix, hreads.head⟩
  · obtain ⟨x, hx, hskip, -, hnext⟩ := next_of_within env hwithin
    refine ⟨x, hx, hskip.trans ?_, hnext⟩
    rw [hmoved.source]

/-- In every state that a parse comes to, at every directive that is looked at
and followed by white space or a line break: its operands are passed over, all
of them and no more, and the next token to be looked at is the one behind them
(`PassesOperands`). Of what stands ahead only that white space can have been
expanded before, so no file is put in for an operand. The directive is done
with in some number of steps, unless its operands are expanded and some
reference stands for a text that shows a reference when it is read again. -/
theorem operands_passed_over (env : Environment) (cache : TokenCache)
    (text : String) (path : Option String) {s v : State}
    (hs : LeadsTo env (.start env cache text path) s)
    (hv : s.advance? = some v) (hskip : v.source.skip = 0)
    (hk : v.source.cursor.current.kind = .directive)
    (htakes : (Directive.ofWord
      v.source.cursor.current.text).takesOperands = true)
    (hspace : ∃ next ∈ v.source.cursor.ahead.head?,
      next.kind = .blank ∨ next.kind = .eol) :
    (∀ next ∈ v.source.cursor.ahead.take v.source.expanded,
        next.kind = .blank ∨ next.kind = .eol)
      ∧ (∀ steps u, v.step env steps v.source.cursor.current = some u →
        ∃ used passed m,
          PassesOperands env v v.source.cursor.current u used passed m)
      ∧ ((∃ steps u, v.step env steps v.source.cursor.current = some u)
        ∨ v.expandsOperands v.source.cursor.current = true
          ∧ v.source.ShowsReference env.options.platform) := by
  have heof : v.source.cursor.current.isEof = false := by
    rw [Token.isEof, hk]
    rfl
  obtain ⟨hsound, hwithin, hexpanded⟩ :=
    (LeadsTo.reached hs (.start env cache text path)).advance hv heof
  refine ⟨fun next hnext => ?_, fun steps u h => passesOperands_of_step hsound
    hwithin hexpanded hskip hk htakes h, ?_⟩
  · -- at most the first of the tokens ahead is expanded
    obtain ⟨first, hfirst, hblank⟩ := hspace
    obtain ⟨rest, hahead⟩ := List.head?_eq_some_iff.1 hfirst
    rw [hahead] at hnext
    have hmem : next ∈ (first :: rest).take 1 :=
      (List.take_subset_take_left _ hexpanded) hnext
    rw [List.mem_singleton.1 hmem]
    exact hblank
  by_cases hshows : v.expandsOperands v.source.cursor.current = true
      ∧ v.source.ShowsReference env.options.platform
  · exact Or.inr hshows
  · left
    obtain ⟨steps, h⟩ := takeToken_ends v.source.cursor.current
      (fun hlive hshow => hshows ⟨hlive, hshow⟩) hwithin.beyond
    obtain ⟨w, hw⟩ := Option.isSome_iff_exists.1 h
    exact ⟨steps, w.expandNext env, by rw [step_eq, hw]; rfl⟩

/-- A branch that is not taken, and one that is. -/
def elseIfText : String :=
  "&SCOPED-DEFINE x 1\n&IF \x7b&x\x7d = 2 &THEN RUN a.\n&ELSEIF \x7b&x\x7d ~\n= 1 &THEN RUN b.\n"

/-- The `&ELSEIF` turns to its branch, with a reference and a line break among
its operands. -/
theorem operands_passed_over_elseIf :
    ∃ s v u used passed m, LeadsTo {} (.start {} {} elseIfText none) s
      ∧ s.advance? = some v ∧ v.source.skip = 0
      ∧ v.source.cursor.current.kind = .directive
      ∧ (Directive.ofWord v.source.cursor.current.text).takesOperands = true
      ∧ (∃ next ∈ v.source.cursor.ahead.head?,
        next.kind = .blank ∨ next.kind = .eol)
      ∧ v.source.cursor.current.text = "&ELSEIF" ∧ v.inFalseBranch = true
      ∧ v.step {} 60 v.source.cursor.current = some u
      ∧ PassesOperands {} v v.source.cursor.current u used passed m := by
  have hrun : ((State.onward? {} 60 21 (.start {} {} elseIfText none)).bind
      fun s => s.advance?.map fun v => (v.source.skip,
        v.source.cursor.current.kind, v.source.cursor.current.text,
        v.source.cursor.ahead.head?.map (·.kind), v.inFalseBranch,
        (v.step {} 60 v.source.cursor.current).isSome))
      = some (0, .directive, "&ELSEIF", some .blank, true, true) := by
    decide +kernel
  obtain ⟨s, hs, hrun⟩ := Option.bind_eq_some_iff.1 hrun
  obtain ⟨v, hv, hrun⟩ := Option.map_eq_some_iff.1 hrun
  simp only [Prod.mk.injEq] at hrun
  obtain ⟨hskip, hk, htext, hblank, hfalse, hstep⟩ := hrun
  obtain ⟨u, hu⟩ := Option.isSome_iff_exists.1 hstep
  obtain ⟨next, hnext, hkind⟩ := Option.map_eq_some_iff.1 hblank
  have hleads := leadsTo_of_onward? hs
  have htakes : (Directive.ofWord v.source.cursor.current.text).takesOperands
      = true := by
    rw [htext]
    decide +kernel
  have hspace : ∃ next ∈ v.source.cursor.ahead.head?,
      next.kind = .blank ∨ next.kind = .eol := ⟨next, hnext, Or.inl hkind⟩
  obtain ⟨used, passed, m, hpasses⟩ :=
    (operands_passed_over {} {} _ none hleads hv hskip hk htakes hspace).2.1
      60 u hu
  exact ⟨s, v, u, used, passed, m, hleads, hv, hskip, hk, htakes, hspace,
    htext, hfalse, hu, hpasses⟩

/-- A value that brings itself in again, in a condition. -/
def endlessConditionText : String :=
  "&SCOPED-DEFINE a /\x7b&u\x7d*\"*/\x7b&a\x7d\"\n&IF \x7b&a\x7d &THEN RUN p.\n"

/-- The operands of that `&IF` do not come to their end: whatever the limit on
its steps, neither the `&IF` nor the parse is done with, and the token behind
`&THEN` is never looked at. -/
theorem operands_endless :
    ∃ s v, LeadsTo {} (.start {} {} endlessConditionText none) s
      ∧ s.advance? = some v ∧ v.source.skip = 0
      ∧ v.source.cursor.current.kind = .directive
      ∧ (Directive.ofWord v.source.cursor.current.text).takesOperands = true
      ∧ (∃ next ∈ v.source.cursor.ahead.head?,
        next.kind = .blank ∨ next.kind = .eol)
      ∧ v.source.cursor.current.text = "&IF"
      ∧ (∀ steps, v.step {} steps v.source.cursor.current = none)
      ∧ ¬ ∃ steps r, parse? steps {} {} endlessConditionText none = some r := by
  have hrun : ∃ s ∈ (State.start {} {} endlessConditionText none).onward? {} 40 8,
      ∃ v ∈ s.advance?, v.source.skip = 0
        ∧ v.source.cursor.current.kind = .directive
        ∧ v.source.cursor.current.text = "&IF"
        ∧ (∃ next ∈ v.source.cursor.ahead.head?, next.kind = .blank)
        ∧ v.inFalseBranch = false
        ∧ ((lookAt {} true .nearest v).source.cursor.peekAhead .nearest).kind
          = .blank
        ∧ Reviving "a" endlessValue 0 Ahead.nearest.next
          (lookAt {} true .nearest v) := by
    decide +kernel
  obtain ⟨s, hs, v, hv, hskip, hk, htext, ⟨next, hnext, hkind⟩, hlive, hfirst,
    hreviving⟩ := hrun
  have hleads := leadsTo_of_onward? hs
  have heof : v.source.cursor.current.isEof = false := by
    rw [Token.isEof, hk]
    rfl
  obtain ⟨hsound, -, -⟩ :=
    (LeadsTo.reached hleads (.start {} {} _ none)).advance hv heof
  have hif : Directive.ofWord v.source.cursor.current.text = .ifThen := by
    rw [htext]
    decide +kernel
  -- the blank is read, and then the reference without end
  have hread : ∀ steps, readCondition {} true steps .nearest v = none := by
    intro steps
    cases steps with
    | zero => rfl
    | succ steps =>
        exact readCondition_behind (by rw [Token.isEof, hfirst]; rfl)
          (by rw [hfirst]; decide)
          (readCondition_reviving revives_endlessValue (by decide) steps
            hreviving)
  have hstep : ∀ steps, v.step {} steps v.source.cursor.current = none :=
    fun steps => step_ifThen_none hsound hskip hk hif hlive (hread steps)
  exact ⟨s, v, hleads, hv, hskip, hk, by rw [hif]; rfl,
    ⟨next, hnext, Or.inl hkind⟩, htext, hstep,
    parse?_none hleads (run_none hv heof hstep)⟩

end Operands

end AblOutline.Parse
