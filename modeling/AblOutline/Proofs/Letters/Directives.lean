/-
Directives in small letters. A directive reads the same operands in small
letters, so its condition has the same truth and its definition gives the
value in small letters. The source stays plain.
-/
import AblOutline.Proofs.Letters.Ending
import AblOutline.Proofs.Letters.Expansion

namespace AblOutline.Parse

open Text Preprocess

-- ============================================================== operands

namespace Operands

variable (o : Operands)

def small : Operands := { o with tokens := o.tokens.map Token.small }

theorem first?_small : o.small.first? = o.first?.map Token.small := by
  unfold first?
  show (o.tokens.map _).find? _ = _
  rw [List.find?_map]
  rfl

theorem textOf_small (t : Token) : textOf t.small = lower (textOf t) := by
  have hblank : lower " " = " " := (lower_eq_iff " " rfl).2 rfl
  obtain ⟨kind, text, start, range, owner⟩ := t
  cases kind with
  | eol => exact hblank.symm
  | _ => rfl

theorem textAfterFirst_small : o.small.textAfterFirst = lower o.textAfterFirst := by
  have hrest : (o.small.tokens.dropWhile (·.kind.isTrivia)).drop 1
      = ((o.tokens.dropWhile (·.kind.isTrivia)).drop 1).map Token.small := by
    show ((o.tokens.map Token.small).dropWhile _).drop 1 = _
    rw [List.dropWhile_map, List.map_drop]
    rfl
  unfold textAfterFirst
  dsimp only
  rw [hrest, List.map_map, ← trim_lower, lower_join, List.map_map]
  refine congrArg (fun texts => trim (String.join texts)) ?_
  exact List.map_congr_left fun t _ => textOf_small t

end Operands

/-- What reads operands reads the same in small letters. -/
abbrev TakesSmall : Option (State × Operands) → Option (State × Operands) → Prop :=
  SmallResult (Prod.map State.small Operands.small)
    fun p => p.1.source.Plain ∧ ∀ t ∈ p.2.tokens, t.IsQuoted

/-- A state that may be come to is the same in small letters. -/
abbrev ComesSmall : Option State → Option State → Prop :=
  SmallResult State.small (·.source.Plain)

/-- So is what a directive does. -/
abbrev DoesSmall : Option Outcome → Option Outcome → Prop :=
  SmallResult Outcome.small (·.state.source.Plain)

theorem ComesSmall.come {u u' : State} (heq : u' = u.small)
    (hplain : u.source.Plain) : ComesSmall (some u') (some u) := by
  subst heq
  exact .some hplain

theorem DoesSmall.done {u u' : State} (heq : u' = u.small)
    (hplain : u.source.Plain) :
    DoesSmall (some { state := u' }) (some { state := u }) := by
  subst heq
  exact ⟨rfl, fun _ he => Option.some.inj he ▸ hplain⟩

theorem TakesSmall.stop {u : State} (hplain : u.source.Plain) (count : Nat) :
    TakesSmall (some (u.small, ⟨[], count⟩)) (some (u, ⟨[], count⟩)) :=
  ⟨rfl, fun _ he => Option.some.inj he ▸ ⟨hplain, List.forall_mem_nil _⟩⟩

namespace State

variable {env : Environment}
  (hres : ∀ name path, env.resolver.resolve name path = none) {s : State}
  (h : s.source.Plain) (steps : Nat) (t : Token)

include hres h

theorem readCondition_small (live : Bool) (a : Ahead) :
    TakesSmall (readCondition env.small live steps a s.small)
      (readCondition env live steps a s) := by
  induction steps generalizing a s with
  | zero => exact .nothing
  | succ steps ih =>
      obtain ⟨heq, hplain⟩ := lookAt_small h a hres live
      unfold readCondition
      dsimp only
      rw [heq]
      generalize lookAt env live a s = u at hplain ⊢
      have hpeek : u.small.source.cursor.peekAhead a
          = (u.source.cursor.peekAhead a).small := Cursor.peekAhead_small _ a
      rw [hpeek, Token.text_small, Directive.ofWord_lower]
      refine .ite (TakesSmall.stop hplain 0)
        (.ite (TakesSmall.stop hplain _) ?_)
      refine (ih hplain a.next).map fun p hp => ⟨rfl, hp.1, ?_⟩
      exact List.forall_mem_cons.2 ⟨hplain.peekAhead a, hp.2⟩

theorem readLine_small (live : Bool) (a : Ahead) :
    TakesSmall (readLine env.small live steps a s.small)
      (readLine env live steps a s) := by
  induction steps generalizing a s with
  | zero => exact .nothing
  | succ steps ih =>
      obtain ⟨heq, hplain⟩ := lookAt_small h a hres live
      unfold readLine
      dsimp only
      rw [heq]
      generalize lookAt env live a s = u at hplain ⊢
      have hpeek : ∀ a, u.small.source.cursor.peekAhead a
          = (u.source.cursor.peekAhead a).small :=
        fun a => Cursor.peekAhead_small _ a
      rw [hpeek, hpeek, Token.isSymbol_small _ rfl]
      refine .ite (TakesSmall.stop hplain 0) (.ite ?_ ?_)
      · refine (ih hplain a.next.next).map fun p hp => ⟨rfl, hp.1, ?_⟩
        exact List.forall_mem_cons.2 ⟨hplain.peekAhead a.next, hp.2⟩
      · refine (ih hplain a.next).map fun p hp => ⟨rfl, hp.1, ?_⟩
        exact List.forall_mem_cons.2 ⟨hplain.peekAhead a, hp.2⟩

theorem takeCondition_small (live : Bool) :
    TakesSmall (s.small.takeCondition env.small steps live)
      (s.takeCondition env steps live) :=
  (readCondition_small hres h steps live .nearest).map fun _ hp =>
    ⟨rfl, ⟨hp.1.chain, hp.1.ahead, hp.1.beyond⟩, hp.2⟩

theorem takeLine_small (live : Bool) :
    TakesSmall (s.small.takeLine env.small steps live)
      (s.takeLine env steps live) :=
  (readLine_small hres h steps live .nearest).map fun _ hp =>
    ⟨rfl, ⟨hp.1.chain, hp.1.ahead, hp.1.beyond⟩, hp.2⟩

-- ========================================================= conditionals

omit hres in
theorem holds_small {o : Operands} (ho : ∀ t ∈ o.tokens, t.IsQuoted)
    (owner : Nat) :
    s.small.holds env.small o.small owner = s.holds env o owner :=
  Condition.holds_small (fun name => congrArg Int64.ofNat
    (Source.definedLevel_small h.chain name owner)) ho

theorem openIf_small :
    ComesSmall (s.small.openIf env.small steps t.small)
      (s.openIf env steps t) := by
  unfold openIf
  rw [inFalseBranch_small]
  refine (takeCondition_small hres h steps _).bind fun p hp => ?_
  obtain ⟨u, o⟩ := p
  have hholds : u.small.holds env.small o.small t.small.owner
      = u.holds env o t.owner := holds_small hp.1 hp.2 t.owner
  dsimp only [Prod.map]
  rw [hholds]
  exact ComesSmall.come (u := { u with nesting := _ }) rfl hp.1

theorem elseIf_small :
    ComesSmall (s.small.elseIf env.small steps t.small)
      (s.elseIf env steps t) := by
  have hturn : s.small.nesting.mayTurn? = s.nesting.mayTurn? :=
    Nesting.mayTurn?_small _
  unfold elseIf
  rw [hturn]
  cases s.nesting.mayTurn? with
  | none =>
      exact (takeCondition_small hres h steps false).map fun p hp =>
        ⟨p.1.addError_small t .unexpectedDirective, hp.1⟩
  | some live =>
      refine (takeCondition_small hres h steps live).bind fun p hp => ?_
      obtain ⟨u, o⟩ := p
      have hholds : u.small.holds env.small o.small t.small.owner
          = u.holds env o t.owner := holds_small hp.1 hp.2 t.owner
      have hturned : ∀ active spent, u.small.nesting.turn active spent
          = (u.nesting.turn active spent).small :=
        fun active spent => Nesting.turn_small _ active spent
      dsimp only [Prod.map]
      rw [hholds, hturned]
      exact ComesSmall.come (u := { u with nesting := _ }) rfl hp.1

omit hres h in
theorem otherwise_small :
    s.small.otherwise t.small = (s.otherwise t).small := by
  have hturn : s.small.nesting.mayTurn? = s.nesting.mayTurn? :=
    Nesting.mayTurn?_small _
  unfold otherwise
  rw [hturn]
  cases s.nesting.mayTurn? with
  | none => exact s.addError_small t .unexpectedDirective
  | some live =>
      exact congrArg (fun nesting => { s.small with nesting })
        (s.nesting.turn_small live true)

omit hres h in
theorem endIf_small : s.small.endIf t.small = (s.endIf t).small := by
  have hend : s.small.nesting.endIf? = s.nesting.endIf?.map Nesting.small :=
    Nesting.endIf?_small _
  unfold endIf
  rw [hend]
  cases s.nesting.endIf? with
  | none => exact s.addError_small t .unexpectedDirective
  | some nesting => rfl

-- ========================================================== definitions

omit hres h in
/-- A name is put down where the definitions have changed. -/
theorem addDefined_small (u : State) (d : Definitions) (name : Token)
    (content : Item.Content) :
    ({ u.small with source := { u.small.source with
        definitions := d.small } } : State).addItem
      name.small.text name.small content.small
      = (({ u with source := { u.source with definitions := d } } :
          State).addItem name.text name content).small :=
  addItem_small { u with source := { u.source with definitions := d } } name
    name.text content

theorem defineName_small (isGlobal : Bool) :
    DoesSmall (s.small.defineName env.small steps t.small isGlobal)
      (s.defineName env steps t isGlobal) := by
  unfold defineName
  refine (takeLine_small hres h steps true).bind fun p hp => ?_
  obtain ⟨u, o⟩ := p
  dsimp only [Prod.map]
  rw [Operands.first?_small, Operands.textAfterFirst_small]
  cases o.first? with
  | none => exact .some (a := u.unnamed t) hp.1
  | some name =>
      have hdefined : (if isGlobal then u.small.source.definitions.defineGlobal
              name.small.text (lower o.textAfterFirst)
            else u.small.source.definitions.defineScoped name.small.owner
              name.small.text (lower o.textAfterFirst))
          = (if isGlobal then
              u.source.definitions.defineGlobal name.text o.textAfterFirst
            else u.source.definitions.defineScoped name.owner name.text
              o.textAfterFirst).small := by
        split
        · exact Definitions.defineGlobal_small _ name.text o.textAfterFirst
        · exact Definitions.defineScoped_small _ name.text name.owner _
      dsimp only [Option.map_some]
      rw [hdefined]
      exact DoesSmall.done (addDefined_small u _ name
        (.name o.textAfterFirst isGlobal false))
        ⟨hp.1.chain, hp.1.ahead, hp.1.beyond⟩

theorem undefineName_small :
    DoesSmall (s.small.undefineName env.small steps t.small)
      (s.undefineName env steps t) := by
  unfold undefineName
  refine (takeLine_small hres h steps false).bind fun p hp => ?_
  obtain ⟨u, o⟩ := p
  dsimp only [Prod.map]
  rw [Operands.first?_small]
  cases o.first? with
  | none => exact .some (a := u.unnamed t) hp.1
  | some name =>
      have hundefined : u.small.source.definitions.undefine name.small.text
            (u.small.source.chain.lineage name.small.owner)
          = (u.source.definitions.undefine name.text
            (u.source.chain.lineage name.owner)).small :=
        Definitions.undefine_small _ name.text _
      dsimp only [Option.map_some]
      rw [hundefined]
      exact DoesSmall.done (addDefined_small u _ name (.name "" false true))
        ⟨hp.1.chain, hp.1.ahead, hp.1.beyond⟩

-- ============================================================= sections

theorem openSection_small :
    ComesSmall (s.small.openSection env.small steps t.small)
      (s.openSection env steps t) := by
  unfold openSection
  refine (takeLine_small hres h steps false).bind fun p hp => ?_
  obtain ⟨u, o⟩ := p
  have htype : ∀ first : Option Token,
      (first.map Token.small).elim "" (·.text)
        = lower (first.elim "" (·.text)) := by
    intro first
    cases first <;> rfl
  have hname : ∀ type description : String,
      (if lower description = "" then lower type else lower description)
        = lower (if description = "" then type else description) := by
    intro type description
    simp only [lower_eq_empty]
    split <;> rfl
  have hadd : ∀ name type description : String,
      u.small.addItem (lower name) t.small
          (.editorSection (lower type) (lower description))
        = (u.addItem name t (.editorSection type description)).small :=
    fun name type description =>
      u.addItem_small t name (.editorSection type description)
  dsimp only [Prod.map]
  rw [Operands.first?_small, Operands.textAfterFirst_small, htype, hname, hadd,
    nextItem_small]
  exact ComesSmall.come (u := openScope _ (.suspended u.nextItem t) t) rfl hp.1

theorem endSection_small :
    DoesSmall (s.small.endSection env.small steps t.small)
      (s.endSection env steps t) := by
  unfold endSection
  refine (takeLine_small hres h steps false).bind fun p hp => ?_
  obtain ⟨u, o⟩ := p
  have hend : u.small.nesting.endSection?
      = u.nesting.endSection?.map (Prod.map Scope.small Nesting.small) :=
    Nesting.endSection?_small _
  dsimp only [Prod.map]
  rw [hend]
  cases u.nesting.endSection? with
  | none =>
      exact DoesSmall.done (u.addError_small t .unexpectedResume) hp.1
  | some closed =>
      obtain ⟨scope, nesting⟩ := closed
      have hitem : scope.small.item? = scope.item? := by
        cases scope <;> rfl
      have hclosed : ∀ item line,
          setEndLine? { u.small with nesting := nesting.small } item line
            = (setEndLine? { u with nesting } item line).map small :=
        fun item line => setEndLine?_small { u with nesting } item line
      dsimp only [Option.map_some, Prod.map]
      rw [hitem]
      cases scope.item? with
      | none => exact DoesSmall.done (u := { u with nesting }) rfl hp.1
      | some item =>
          have hline : rootLine { u.small with nesting := nesting.small } t.small
              = rootLine { u with nesting } t := rfl
          dsimp only
          rw [hclosed, hline]
          cases hset : setEndLine? { u with nesting } item
              (rootLine { u with nesting } t) with
          | none =>
              exact ⟨rfl, fun _ he => Option.some.inj he ▸ hp.1⟩
          | some v =>
              have hsource : v.source = u.source := by
                unfold setEndLine? changeItem? at hset
                split at hset
                · cases hset
                  rfl
                · cases hset
              exact DoesSmall.done rfl (hsource ▸ hp.1)

-- =========================================================== directives

theorem directive_small :
    DoesSmall (s.small.directive env.small steps t.small)
      (s.directive env steps t) := by
  have hfaultless : ∀ {x' x : Option State}, ComesSmall x' x →
      DoesSmall (x'.map fun s => ({ state := s } : Outcome))
        (x.map fun s => ({ state := s } : Outcome)) :=
    fun hx => hx.map fun _ hu => ⟨rfl, hu⟩
  have hline : DoesSmall
      (((s.small.takeLine env.small steps false).map (·.1)).map
        fun s => ({ state := s } : Outcome))
      (((s.takeLine env steps false).map (·.1)).map
        fun s => ({ state := s } : Outcome)) :=
    hfaultless ((takeLine_small hres h steps false).map fun _ hp =>
      ⟨rfl, hp.1⟩)
  unfold directive
  rw [Token.text_small, Directive.ofWord_lower, inFalseBranch_small]
  dsimp only
  cases Directive.ofWord t.text with
  | ifThen => exact hfaultless (openIf_small hres h steps t)
  | elseIf => exact hfaultless (elseIf_small hres h steps t)
  | otherwise =>
      refine DoesSmall.done (otherwise_small t) ?_
      unfold otherwise
      split <;> exact h
  | endIf =>
      refine DoesSmall.done (endIf_small t) ?_
      unfold endIf
      split <;> exact h
  | thenPart => exact DoesSmall.done rfl h
  | other => exact DoesSmall.done rfl h
  | globalDefine => exact .ite hline (defineName_small hres h steps t true)
  | scopedDefine => exact .ite hline (defineName_small hres h steps t false)
  | undefine => exact .ite hline (undefineName_small hres h steps t)
  | analyzeSuspend =>
      exact .ite hline (hfaultless (openSection_small hres h steps t))
  | analyzeResume => exact .ite hline (endSection_small hres h steps t)
  | message => exact .ite hline hline

end State

end AblOutline.Parse
