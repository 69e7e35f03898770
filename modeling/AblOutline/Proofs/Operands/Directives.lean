/-
Directives that read operands. Each first reads a line or a condition and says
how many tokens are then to be passed over (`State.takeOperands`); the rest of
what it does always comes to something, and leaves the stream and the statement
being read alone (`directive_eq_map`). So a directive comes to an end where its
operands do (`directive_of_takeOperands`).
-/
import AblOutline.Proofs.Operands.Reading

namespace AblOutline

namespace Preprocess.Directive

/-- The operands of the directive are a condition. -/
def takesCondition : Directive → Bool
  | .ifThen | .elseIf => true
  | _ => false

/-- The directive gives a value to a name, or takes it back. -/
def namesValue : Directive → Bool
  | .globalDefine | .scopedDefine | .undefine => true
  | _ => false

/-- The directive reads operands. -/
def takesOperands (d : Directive) : Bool := d.takesLine || d.takesCondition

theorem takesLine_of_namesValue {d : Directive} (h : d.namesValue = true) :
    d.takesLine = true := by
  cases d <;> first | rfl | cases h

theorem takesCondition_of_takesLine {d : Directive} (h : d.takesLine = true) :
    d.takesCondition = false := by
  cases d <;> first | rfl | cases h

end Preprocess.Directive

namespace Parse

open Preprocess

-- ================================================================= operands

namespace State

/-- References among the operands of the directive `t` give way to their
values. -/
def expandsOperands (s : State) (t : Token) : Bool :=
  match Directive.ofWord t.text with
  | .ifThen | .globalDefine | .scopedDefine => !s.inFalseBranch
  | .elseIf => s.nesting.mayTurn?.getD false
  | _ => false

/-- Reads the operands of the directive `t`. -/
def takeOperands (env : Environment) (steps : Nat) (s : State) (t : Token) :
    Option (State × Operands) :=
  if (Directive.ofWord t.text).takesCondition then
    s.takeCondition env steps (s.expandsOperands t)
  else s.takeLine env steps (s.expandsOperands t)

end State

/-- How operands are read: `passed` are the tokens to pass over, `rest` is what
stands behind them. -/
def OperandsRead (d : Directive) (live : Bool)
    (ts used passed rest : List Token) : Prop :=
  if d.takesCondition then ReadsCondition live ts used passed rest
  else ReadsLine live ts used passed rest

/-- Neither the stream nor the statement being read is changed: what is done
besides is to define names, to find items and errors, and to open and close
scopes. -/
structure LeavesStream (s s' : State) : Prop where
  source : s'.source = { s.source with definitions := s'.source.definitions }
  analysis : s'.analysis = s.analysis

section Operands

variable {env : Environment} {steps : Nat} {s u : State} {t : Token}
  {o : Operands} {out : Outcome}

/-- Operands that reach to the end of a line are read so. -/
theorem OperandsRead.line {d : Directive} {live : Bool}
    {ts used passed rest : List Token} (hd : d.takesLine = true)
    (h : OperandsRead d live ts used passed rest) :
    ReadsLine live ts used passed rest := by
  unfold OperandsRead at h
  rwa [Directive.takesCondition_of_takesLine hd,
    if_neg Bool.false_ne_true] at h

theorem OperandsRead.isEof_passed {d : Directive} {live : Bool}
    {ts used passed rest : List Token}
    (h : OperandsRead d live ts used passed rest) :
    ∀ t ∈ passed, t.isEof = false := by
  unfold OperandsRead at h
  split at h
  · exact ReadsCondition.isEof_passed h
  · exact ReadsLine.isEof_passed h

/-- The operands of a directive are the tokens right ahead, and so many are to
be passed over. -/
theorem takeOperands_read (hb : s.source.cursor.beyond.isEof = true)
    (h : s.takeOperands env steps t = some (u, o)) :
    ∃ used passed rest v,
      OperandsRead (.ofWord t.text) (s.expandsOperands t)
          s.source.cursor.ahead used passed rest
        ∧ ReadBehind env.options.platform s v o [] used passed rest
        ∧ u = v.skipping o := by
  unfold State.takeOperands at h
  unfold OperandsRead
  split at h
  · next hcondition =>
      obtain ⟨⟨v, o'⟩, hv, he⟩ := Option.map_eq_some_iff.1 h
      cases he
      obtain ⟨used, passed, rest, hread, hstops⟩ :=
        readCondition_condition hb (.nearest _) hv
      refine ⟨used, passed, rest, v, ?_, hread, rfl⟩
      rw [if_pos hcondition]
      exact hstops
  · next hline =>
      obtain ⟨⟨v, o'⟩, hv, he⟩ := Option.map_eq_some_iff.1 h
      cases he
      obtain ⟨used, passed, rest, hread, hstops⟩ :=
        readLine_line hb (.nearest _) hv
      refine ⟨used, passed, rest, v, ?_, hread, rfl⟩
      rw [if_neg hline]
      exact hstops

-- =============================================================== directives

/-- What the directive `t` comes to in `s`, once its operands are read: neither
the stream nor the statement is changed, and where a name is wanted and none is
given nothing is done. -/
structure CarriesOut (s : State) (t : Token) (read : State × Operands)
    (out : Outcome) : Prop where
  leaves : LeavesStream read.1 out.state
  unnamed : (Directive.ofWord t.text).namesValue = true →
    read.2.first? = none → out = {
      state := read.1
      fault := if s.inFalseBranch then none
        else some (.missingName t.text t.lineNumber) }

/-- Work that always comes to something. -/
theorem map_of_bind {α β : Type} {P : α → β → Prop} {x : Nat → Option α}
    {d : Nat → Option β} {g : α → Option β}
    (hd : ∀ steps, d steps = (x steps).bind g)
    (hg : ∀ a, ∃ b, g a = some b ∧ P a b) :
    ∃ work : α → β, (∀ steps, d steps = (x steps).map work)
      ∧ ∀ a, P a (work a) := by
  refine ⟨fun a => (hg a).choose, fun steps => ?_,
    fun a => (hg a).choose_spec.2⟩
  rw [hd, Option.map_eq_bind]
  exact congrArg _ (funext fun a => (hg a).choose_spec.1)

/-- A directive reads its operands, and what it then does always comes to
something. -/
theorem directive_eq_map (env : Environment) (s : State) {t : Token}
    (htakes : (Directive.ofWord t.text).takesOperands = true) :
    ∃ work : State × Operands → Outcome,
      (∀ steps, s.directive env steps t
        = (s.takeOperands env steps t).map work)
      ∧ ∀ read, CarriesOut s t read (work read) := by
  -- the operands are all there is to it
  have hpass : ∀ {x : Nat → Option (State × Operands)},
      ((Directive.ofWord t.text).namesValue = true → s.inFalseBranch = true) →
      ∃ work : State × Operands → Outcome,
        (∀ steps, ((x steps).map (·.1)).map
            (fun u => ({ state := u } : Outcome)) = (x steps).map work)
        ∧ ∀ read, CarriesOut s t read (work read) := by
    intro x hfalse
    refine ⟨fun read => { state := read.1 }, fun steps => Option.map_map _ _ _,
      fun read => ⟨⟨rfl, rfl⟩, fun hnames _ => ?_⟩⟩
    rw [hfalse hnames]
    rfl
  have hnot : ∀ {read : State × Operands} {out : Outcome},
      (Directive.ofWord t.text).namesValue = false →
      LeavesStream read.1 out.state → CarriesOut s t read out := by
    intro read out hd hleaves
    refine ⟨hleaves, fun h => ?_⟩
    rw [hd] at h
    cases h
  unfold State.directive State.takeOperands State.expandsOperands
  cases hw : Directive.ofWord t.text with
  | ifThen =>
      refine map_of_bind (fun _ => Option.map_bind) fun read => ?_
      exact ⟨_, rfl, hnot (by rw [hw]; rfl) ⟨rfl, rfl⟩⟩
  | elseIf =>
      unfold State.elseIf
      cases s.nesting.mayTurn? with
      | none =>
          refine ⟨fun read => { state := read.1.addError .unexpectedDirective t },
            fun _ => Option.map_map _ _ _, fun read => ?_⟩
          exact hnot (by rw [hw]; rfl) ⟨rfl, rfl⟩
      | some live =>
          refine map_of_bind (fun _ => Option.map_bind) fun read => ?_
          exact ⟨_, rfl, hnot (by rw [hw]; rfl) ⟨rfl, rfl⟩⟩
  | otherwise | endIf | thenPart | other => rw [hw] at htakes; cases htakes
  | globalDefine | scopedDefine | undefine =>
      dsimp only
      cases hfalse : s.inFalseBranch with
      | true => exact hpass fun _ => hfalse
      | false =>
          refine map_of_bind (fun _ => rfl) fun read => ?_
          dsimp only
          split
          · exact ⟨_, rfl, ⟨rfl, rfl⟩, fun _ _ => by rw [hfalse]; rfl⟩
          · next hfirst =>
              exact ⟨_, rfl, ⟨rfl, rfl⟩, fun _ h => by rw [hfirst] at h; cases h⟩
  | analyzeSuspend =>
      dsimp only
      split
      · next hfalse => exact hpass fun _ => hfalse
      · refine map_of_bind (fun _ => Option.map_bind) fun read => ?_
        exact ⟨_, rfl, hnot (by rw [hw]; rfl) ⟨rfl, rfl⟩⟩
  | analyzeResume =>
      dsimp only
      split
      · next hfalse => exact hpass fun _ => hfalse
      · refine map_of_bind (fun _ => rfl) fun read => ?_
        dsimp only
        split
        · exact ⟨_, rfl, hnot (by rw [hw]; rfl) ⟨rfl, rfl⟩⟩
        · split
          · exact ⟨_, rfl, hnot (by rw [hw]; rfl) ⟨rfl, rfl⟩⟩
          · split
            · next hset =>
                unfold State.setEndLine? State.changeItem? at hset
                split at hset
                · cases hset
                  exact ⟨_, rfl, hnot (by rw [hw]; rfl) ⟨rfl, rfl⟩⟩
                · cases hset
            · exact ⟨_, rfl, hnot (by rw [hw]; rfl) ⟨rfl, rfl⟩⟩
  | message =>
      dsimp only
      split
      · next hfalse => exact hpass fun _ => hfalse
      · exact hpass fun h => by rw [hw] at h; cases h

/-- A directive takes its operands, and leaves what is ahead as they left
it. -/
theorem directive_takes (htakes : (Directive.ofWord t.text).takesOperands = true)
    (h : s.directive env steps t = some out) :
    ∃ u o, s.takeOperands env steps t = some (u, o)
      ∧ LeavesStream u out.state := by
  obtain ⟨work, hwork, hcarries⟩ := directive_eq_map env s htakes
  rw [hwork] at h
  obtain ⟨⟨u, o⟩, hu, rfl⟩ := Option.map_eq_some_iff.1 h
  exact ⟨u, o, hu, (hcarries (u, o)).leaves⟩

/-- A directive comes to an end where its operands do. -/
theorem directive_of_takeOperands
    (htakes : (Directive.ofWord t.text).takesOperands = true)
    (h : (s.takeOperands env steps t).isSome = true) :
    (s.directive env steps t).isSome = true := by
  obtain ⟨work, hwork, -⟩ := directive_eq_map env s htakes
  rw [hwork, Option.isSome_map]
  exact h

end Operands

end Parse

end AblOutline
