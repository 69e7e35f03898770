/-
What the cache has no part in. The words and the end of a statement, the
values of references and all directives do to a state over one cache what they
do to it over another (`State.over`); so do the questions that were put to the
resolver. Only the expansion of an include directive looks into the cache.
-/
import AblOutline.Parse.Run

namespace AblOutline.Parse

/-- The state over another cache, after other questions. -/
def State.over (s : State) (c : TokenCache) (q : List Query) : State :=
  { s with source := { s.source with cache := c, asked := q } }

def Outcome.over (o : Outcome) (c : TokenCache) (q : List Query) : Outcome :=
  { o with state := o.state.over c q }

namespace State

variable (env : Environment) (s : State) (t : Token) (c : TokenCache)
  (q : List Query)

theorem over_self : s.over s.source.cache s.source.asked = s := rfl

variable {c q}

theorem over_ite {P : Prop} [Decidable P] {u v u' v' : State}
    (hu : u' = u.over c q) (hv : v' = v.over c q) :
    (if P then u' else v') = (if P then u else v).over c q := by
  split
  · exact hu
  · exact hv

theorem outcome_over_ite {P : Prop} [Decidable P] {u v u' v' : Outcome}
    (hu : u' = u.over c q) (hv : v' = v.over c q) :
    (if P then u' else v') = (if P then u else v).over c q := by
  split
  · exact hu
  · exact hv

variable (c q)

theorem addItem_over (name : String) (content : Item.Content) :
    (s.over c q).addItem name t content
      = (s.addItem name t content).over c q := rfl

theorem setFunction_over (name : String) (entry : FunctionEntry) :
    (s.over c q).setFunction name entry
      = (s.setFunction name entry).over c q := rfl

-- ================================================================== words

theorem useTable_over (table : String) (temporary : Bool) :
    (s.over c q).useTable t table temporary
      = (s.useTable t table temporary).over c q := by
  unfold useTable
  exact over_ite rfl rfl

theorem addUnknown_over :
    (s.over c q).addUnknown t = (s.addUnknown t).over c q := by
  unfold addUnknown
  exact over_ite rfl rfl

theorem useNames_over :
    (s.over c q).useNames env t = (s.useNames env t).over c q := by
  have table : ∀ use : Option (String × Bool),
      use.elim (s.over c q) (fun use => (s.over c q).useTable t use.1 use.2)
        = (use.elim s fun use => s.useTable t use.1 use.2).over c q := by
    intro use
    cases use with
    | none => rfl
    | some use => exact useTable_over s t c q use.1 use.2
  rw [useNames_eq, useNames_eq]
  refine over_ite ?_ (table _)
  exact (congrArg (·.addUnknown t) (table _)).trans (addUnknown_over _ t c q)

theorem lookAtWord_over (spaced : Bool) :
    (s.over c q).lookAtWord env t spaced
      = (s.lookAtWord env t spaced).over c q := by
  have hname : (s.over c q).dynamicName? = s.dynamicName? := rfl
  unfold lookAtWord
  rw [hname]
  refine over_ite rfl (over_ite ?_
    (over_ite rfl (useNames_over env s t c q)))
  cases s.dynamicName? <;> rfl

theorem beginAtWord_over :
    (s.over c q).beginAtWord t = (s.beginAtWord t).over c q := by
  have hstatement : (s.over c q).analysis.statement
      = s.analysis.statement := rfl
  unfold beginAtWord
  dsimp only
  rw [hstatement]
  cases s.analysis.statement.first? with
  | none => rfl
  | some first => exact over_ite rfl (over_ite rfl rfl)

theorem readToken_over :
    (s.over c q).readToken env t = (s.readToken env t).over c q := by
  have begun := beginAtWord_over
    { s with analysis := { s.analysis with spaced := false } } t c q
  have word : ∀ {u v : State} (restart : Bool), u = v.over c q →
      { u with analysis := { u.analysis with restart } }.lookAtWord env t
          s.analysis.spaced
        = ({ v with analysis := { v.analysis with restart } }.lookAtWord env t
          s.analysis.spaced).over c q := by
    rintro u v restart rfl
    exact lookAtWord_over env { v with analysis :=
      { v.analysis with restart } } t c q _
  unfold readToken
  dsimp only
  by_cases hk : t.kind = .word
  · rw [if_pos hk, if_pos hk]
    exact congrArg (·.addPart ⟨t, s.analysis.spaced⟩) (word _ begun)
  · rw [if_neg hk, if_neg hk]
    rfl

-- ============================================================= statements

section Statements

variable {s c q}

/-- What is done with what was read, if it could be read. -/
theorem reading_over {α : Type} (read : Except AnalysisFault α)
    {work work' : α → Outcome} (h : ∀ a, work' a = (work a).over c q) :
    (s.over c q).reading read work' = (s.reading read work).over c q := by
  unfold reading
  cases read with
  | error fault => rfl
  | ok a => exact h a

theorem changeItem?_over (id : ItemId) (f : Item → Item) :
    (s.over c q).changeItem? id f
      = (s.changeItem? id f).map (·.over c q) := by
  have hsize : (s.over c q).findings.items.size
    = s.findings.items.size := rfl
  unfold changeItem?
  rw [hsize]
  split <;> rfl

theorem changing_over (item : Option ItemId) (f : Item → Item)
    {next next' : State → Outcome}
    (h : ∀ u : State, next' (u.over c q) = (next u).over c q) :
    (s.over c q).changing item f next' = (s.changing item f next).over c q := by
  unfold changing
  cases item with
  | none => exact h s
  | some id =>
      dsimp only
      rw [changeItem?_over]
      cases s.changeItem? id f with
      | none => rfl
      | some u => exact h u

theorem done_over {u v : State} (h : u = v.over c q) :
    u.done = v.done.over c q := congrArg done h

end Statements

variable (statement : Statement) (colon : Bool)

theorem openRoutine_over (item : ItemId) (kind : RoutineKind)
    (keyword : String) (opener : Token) :
    (s.over c q).openRoutine item kind keyword opener
      = (s.openRoutine item kind keyword opener).over c q := by
  have hopen : (s.over c q).nesting.openRoutines
      = s.nesting.openRoutines := rfl
  unfold openRoutine
  rw [hopen]
  split <;> rfl

theorem endProcedure_over :
    (s.over c q).endProcedure statement
      = (s.endProcedure statement).over c q :=
  reading_over _ fun head => done_over (openRoutine_over
    (s.addItem head.name head.nameToken (.procedure head.procedure))
    c q _ _ _ _)

theorem addPrototype_over (head : Statement.FunctionHead) :
    (s.over c q).addPrototype head = (s.addPrototype head).over c q := by
  unfold addPrototype
  dsimp only
  rw [addItem_over]
  exact changing_over _ _ fun u => rfl

theorem addImplementation_over (head : Statement.FunctionHead) :
    (s.over c q).addImplementation head
      = (s.addImplementation head).over c q := by
  unfold addImplementation
  dsimp only
  rw [addItem_over]
  refine changing_over _ _ fun u => ?_
  rw [setFunction_over]
  exact done_over (openRoutine_over _ c q _ _ _ _)

theorem endFunction_over :
    (s.over c q).endFunction statement colon
      = (s.endFunction statement colon).over c q := by
  refine reading_over _ fun head => outcome_over_ite ?_ ?_
  · exact addImplementation_over s c q head
  · exact addPrototype_over s c q head

theorem endMethod_over :
    (s.over c q).endMethod statement colon
      = (s.endMethod statement colon).over c q :=
  reading_over _ fun head => outcome_over_ite (done_over (openRoutine_over
    (s.addItem head.name head.nameToken (.method head.method))
    c q _ _ _ _)) rfl

theorem endOn_over :
    (s.over c q).endOn statement = (s.endOn statement).over c q := by
  unfold endOn
  exact outcome_over_ite (reading_over _ fun _ => rfl) rfl

theorem openAccessor_over :
    (s.over c q).openAccessor statement colon
      = (s.openAccessor statement colon).over c q := by
  unfold openAccessor
  cases (if colon then statement.accessor? else none) <;> rfl

theorem endDefine_over :
    (s.over c q).endDefine statement colon
      = (s.endDefine statement colon).over c q := by
  refine reading_over _ fun defined => ?_
  cases defined with
  | nothing => rfl
  | buffer token name table temporary => rfl
  | event token name =>
      exact done_over (openAccessor_over (s.addItem name token .event) c q
        statement colon)
  | definition token name d =>
      have added : (s.over c q).addDefinition token name d
          = (s.addDefinition token name d).over c q := by
        unfold addDefinition
        dsimp only
        split <;> rfl
      exact done_over ((congrArg (·.openAccessor statement colon) added).trans
        (openAccessor_over _ c q statement colon))

theorem endVar_over :
    (s.over c q).endVar statement = (s.endVar statement).over c q := by
  have hnames : ∀ (content : Item.Content) (ts : List Token) (s : State),
      ts.foldl (fun s t => s.addItem t.text t content) (s.over c q)
        = (ts.foldl (fun s t => s.addItem t.text t content) s).over c q := by
    intro content ts
    induction ts with
    | nil => exact fun _ => rfl
    | cons t ts ih => exact fun s => ih (s.addItem t.text t content)
  exact reading_over _ fun v => done_over (hnames _ v.names s)

theorem endLabel_over :
    (s.over c q).endLabel env statement
      = ((s.endLabel env statement).1.over c q,
        (s.endLabel env statement).2) := by
  unfold endLabel
  split
  · split <;> rfl
  · rfl

theorem endBlockHead_over :
    (s.over c q).endBlockHead statement
      = (s.endBlockHead statement).over c q := by
  refine reading_over _ fun opener => ?_
  dsimp only
  split
  · refine changing_over _ _ fun u => ?_
    rfl
  · refine changing_over (s := { s with analysis :=
      { s.analysis with pendingLabel := none } }) _ _ fun u => ?_
    rfl

theorem endBlock_over :
    (s.over c q).endBlock statement = (s.endBlock statement).over c q := by
  refine reading_over _ fun stop => ?_
  have hnesting : (s.over c q).nesting = s.nesting := rfl
  rw [hnesting]
  cases s.nesting.endBlock? with
  | none => rfl
  | some closed =>
      obtain ⟨scope, nesting⟩ := closed
      have hclosed : ∀ (P : Prop) [Decidable P],
          (if P then State.addErrorAt { s.over c q with nesting }
              .mismatchedEnd stop ((s.over c q).rootLine stop)
              (s.over c q).nesting.depth
            else { s.over c q with nesting })
          = (if P then State.addErrorAt { s with nesting } .mismatchedEnd stop
              (s.rootLine stop) s.nesting.depth
            else { s with nesting }).over c q := by
        intro P _
        split <;> rfl
      dsimp only
      rw [← hnesting, hclosed]
      refine changing_over _ _ fun u => ?_
      rfl

theorem endByKind_over :
    (s.over c q).endByKind env statement colon
      = ((s.endByKind env statement colon).1.over c q,
        (s.endByKind env statement colon).2) := by
  unfold endByKind
  cases statement.kind with
  | procedure => exact congrArg (·, false) (endProcedure_over s c q statement)
  | function =>
      exact congrArg (·, false) (endFunction_over s c q statement colon)
  | method => exact congrArg (·, false) (endMethod_over s c q statement colon)
  | constructor =>
      exact congrArg (·, false) (endMethod_over s c q statement colon)
  | destructor =>
      exact congrArg (·, false) (endMethod_over s c q statement colon)
  | on => exact congrArg (·, false) (endOn_over s c q statement)
  | run => exact congrArg (·, false) (reading_over _ fun _ => rfl)
  | define => exact congrArg (·, false) (endDefine_over s c q statement colon)
  | var => exact congrArg (·, false) (endVar_over s c q statement)
  | close => exact congrArg (·, false) (endBlock_over s c q statement)
  | block => exact congrArg (·, false) (endBlockHead_over s c q statement)
  | accessor =>
      cases colon with
      | false => rfl
      | true => exact congrArg (·, false) (endBlockHead_over s c q statement)
  | other =>
      cases colon with
      | false => rfl
      | true =>
          exact congrArg (fun l : State × Bool => (l.1.done, l.2))
            (endLabel_over env s c q statement)

/-- The end of a statement. -/
theorem endStatement_over (stop : Token) :
    (s.over c q).endStatement env statement stop
      = (s.endStatement env statement stop).over c q := by
  have hkind := endByKind_over env (s.under statement.trigger) c q statement
    (stop.text == ":")
  have hunder : (s.over c q).under statement.trigger
      = (s.under statement.trigger).over c q := rfl
  unfold endStatement
  dsimp only
  rw [hunder, hkind]
  rfl

-- ============================================================= references

theorem afterReference_over (name : String) (owner : Nat) :
    (s.over c q).source.afterReference name owner
      = { s.source.afterReference name owner with cache := c, asked := q } := by
  have hmeaning : (s.over c q).source.meaning? name owner
    = s.source.meaning? name owner := rfl
  unfold Source.afterReference
  rw [hmeaning]
  split <;> rfl

theorem substitute_over (platform : Platform) (a : Ahead) :
    (s.over c q).substitute platform a t
      = (s.substitute platform a t).over c q := by
  unfold substitute
  dsimp only
  rw [addItem_over, afterReference_over]
  rfl

theorem substituteFirst_over (platform : Platform) (a : Ahead)
    (ts : List Token) :
    (s.over c q).substituteFirst platform a ts
      = ((s.substituteFirst platform a ts).1.over c q,
        (s.substituteFirst platform a ts).2) := by
  induction ts generalizing s with
  | nil => rfl
  | cons t ts ih =>
      have hvalue : (s.over c q).valueTokens platform t
          = s.valueTokens platform t := rfl
      unfold substituteFirst
      dsimp only
      rw [hvalue, substitute_over, ih]
      split <;> rfl

theorem settle_over (platform : Platform) (a : Ahead) (depth : Nat) :
    (s.over c q).settle platform a depth
      = (s.settle platform a depth).over c q := by
  induction depth generalizing s with
  | zero => rfl
  | succ depth ih =>
      have hrefs : (s.over c q).referencesAt a = s.referencesAt a := rfl
      unfold settle
      rw [hrefs, substituteFirst_over]
      obtain ⟨u, found⟩ := s.substituteFirst platform a (s.referencesAt a)
      cases found with
      | true => exact ih u
      | false => rfl

theorem lookAt_over (live : Bool) (a : Ahead) :
    lookAt env live a (s.over c q) = (lookAt env live a s).over c q := by
  have hexpanded : (s.over c q).isExpanded a = s.isExpanded a := rfl
  cases live with
  | false => rfl
  | true =>
      show (s.over c q).expandAt env a false = (s.expandAt env a false).over c q
      unfold expandAt
      rw [hexpanded, settle_over]
      split <;> rfl

-- ============================================================= directives

variable (steps : Nat) (live : Bool) (a : Ahead)

theorem readCondition_over :
    readCondition env live steps a (s.over c q)
      = (readCondition env live steps a s).map
        fun r => (r.1.over c q, r.2) := by
  induction steps generalizing a s with
  | zero => rfl
  | succ steps ih =>
      unfold readCondition
      dsimp only
      rw [lookAt_over, ih]
      generalize lookAt env live a s = u
      have hcursor : (u.over c q).source.cursor = u.source.cursor := rfl
      rw [hcursor]
      split
      · rfl
      · split
        · rfl
        · rw [Option.map_map, Option.map_map]
          rfl

theorem readLine_over :
    readLine env live steps a (s.over c q)
      = (readLine env live steps a s).map fun r => (r.1.over c q, r.2) := by
  induction steps generalizing a s with
  | zero => rfl
  | succ steps ih =>
      unfold readLine
      dsimp only
      rw [lookAt_over, ih, ih]
      generalize lookAt env live a s = u
      have hcursor : (u.over c q).source.cursor = u.source.cursor := rfl
      rw [hcursor]
      split
      · rfl
      · split
        · rw [Option.map_map, Option.map_map]
          rfl
        · rw [Option.map_map, Option.map_map]
          rfl

theorem takeCondition_over :
    (s.over c q).takeCondition env steps live
      = (s.takeCondition env steps live).map fun r => (r.1.over c q, r.2) := by
  unfold takeCondition
  rw [readCondition_over, Option.map_map, Option.map_map]
  rfl

theorem takeLine_over :
    (s.over c q).takeLine env steps live
      = (s.takeLine env steps live).map fun r => (r.1.over c q, r.2) := by
  unfold takeLine
  rw [readLine_over, Option.map_map, Option.map_map]
  rfl

theorem openIf_over :
    (s.over c q).openIf env steps t
      = (s.openIf env steps t).map (·.over c q) := by
  have hlive : (s.over c q).inFalseBranch = s.inFalseBranch := rfl
  unfold openIf
  rw [hlive]
  dsimp only
  rw [takeCondition_over]
  cases s.takeCondition env steps (!s.inFalseBranch) <;> rfl

theorem elseIf_over :
    (s.over c q).elseIf env steps t
      = (s.elseIf env steps t).map (·.over c q) := by
  have hnesting : (s.over c q).nesting = s.nesting := rfl
  unfold elseIf
  rw [hnesting]
  cases s.nesting.mayTurn? with
  | none =>
      dsimp only
      rw [takeCondition_over]
      cases s.takeCondition env steps false <;> rfl
  | some live =>
      dsimp only
      rw [takeCondition_over]
      cases s.takeCondition env steps live <;> rfl

theorem otherwise_over :
    (s.over c q).otherwise t = (s.otherwise t).over c q := by
  have hnesting : (s.over c q).nesting = s.nesting := rfl
  unfold otherwise
  rw [hnesting]
  cases s.nesting.mayTurn? <;> rfl

theorem endIf_over : (s.over c q).endIf t = (s.endIf t).over c q := by
  have hnesting : (s.over c q).nesting = s.nesting := rfl
  unfold endIf
  rw [hnesting]
  cases s.nesting.endIf? <;> rfl

theorem defineName_over (isGlobal : Bool) :
    (s.over c q).defineName env steps t isGlobal
      = (s.defineName env steps t isGlobal).map (·.over c q) := by
  unfold defineName
  rw [takeLine_over]
  cases s.takeLine env steps true with
  | none => rfl
  | some r =>
      obtain ⟨u, operands⟩ := r
      dsimp only [bind, Option.bind, Option.map]
      cases operands.first? <;> rfl

theorem undefineName_over :
    (s.over c q).undefineName env steps t
      = (s.undefineName env steps t).map (·.over c q) := by
  unfold undefineName
  rw [takeLine_over]
  cases s.takeLine env steps false with
  | none => rfl
  | some r =>
      obtain ⟨u, operands⟩ := r
      dsimp only [bind, Option.bind, Option.map]
      cases operands.first? <;> rfl

theorem openSection_over :
    (s.over c q).openSection env steps t
      = (s.openSection env steps t).map (·.over c q) := by
  unfold openSection
  rw [takeLine_over]
  cases s.takeLine env steps false <;> rfl

theorem endSection_over :
    (s.over c q).endSection env steps t
      = (s.endSection env steps t).map (·.over c q) := by
  unfold endSection
  rw [takeLine_over]
  cases s.takeLine env steps false with
  | none => rfl
  | some r =>
      obtain ⟨u, operands⟩ := r
      have hnesting : (u.over c q).nesting = u.nesting := rfl
      simp only [Option.map_some, Option.bind_eq_bind, Option.bind_some]
      rw [hnesting]
      cases u.nesting.endSection? with
      | none => rfl
      | some closed =>
          obtain ⟨scope, nesting⟩ := closed
          dsimp only
          cases scope.item? with
          | none => rfl
          | some item =>
              have hset : State.setEndLine? { u.over c q with nesting } item
                    (State.rootLine { u.over c q with nesting } t)
                  = (State.setEndLine? { u with nesting } item
                    (State.rootLine { u with nesting } t)).map (·.over c q) :=
                changeItem?_over (s := { u with nesting }) item _
              dsimp only
              rw [hset]
              cases State.setEndLine? { u with nesting } item _ <;> rfl

theorem directive_over :
    (s.over c q).directive env steps t
      = (s.directive env steps t).map (·.over c q) := by
  have hbranch : (s.over c q).inFalseBranch = s.inFalseBranch := rfl
  have faultless : ∀ r : Option State,
      (r.map (·.over c q)).map (fun s => ({ state := s } : Outcome))
        = (r.map fun s => ({ state := s } : Outcome)).map (·.over c q) := by
    intro r
    cases r <;> rfl
  have hline : ((((s.over c q).takeLine env steps false).map (·.1)).map
        fun s => ({ state := s } : Outcome))
      = (((s.takeLine env steps false).map (·.1)).map
        fun s => ({ state := s } : Outcome)).map (·.over c q) := by
    rw [takeLine_over]
    cases s.takeLine env steps false <;> rfl
  unfold directive
  dsimp only
  rw [hbranch]
  cases Preprocess.Directive.ofWord t.text with
  | ifThen => exact (congrArg _ (openIf_over env s t c q steps)).trans (faultless _)
  | elseIf => exact (congrArg _ (elseIf_over env s t c q steps)).trans (faultless _)
  | otherwise =>
      exact (congrArg (fun u => some (done u)) (otherwise_over s t c q))
  | endIf => exact (congrArg (fun u => some (done u)) (endIf_over s t c q))
  | thenPart => rfl
  | other => rfl
  | globalDefine =>
      dsimp only
      split
      · exact hline
      · exact defineName_over env s t c q steps true
  | scopedDefine =>
      dsimp only
      split
      · exact hline
      · exact defineName_over env s t c q steps false
  | undefine =>
      dsimp only
      split
      · exact hline
      · exact undefineName_over env s t c q steps
  | analyzeSuspend =>
      dsimp only
      split
      · exact hline
      · exact (congrArg _ (openSection_over env s t c q steps)).trans
          (faultless _)
  | analyzeResume =>
      dsimp only
      split
      · exact hline
      · exact endSection_over env s t c q steps
  | message =>
      dsimp only
      split
      · exact hline
      · exact hline

-- ================================================================== steps

theorem look_over (ended : Option Statement) :
    (s.over c q).look env steps t ended
      = (s.look env steps t ended).map (·.over c q) := by
  have hdepth : (s.over c q).nesting = s.nesting := rfl
  have hbranch : (s.over c q).inFalseBranch = s.inFalseBranch := rfl
  unfold look
  rw [hdepth, hbranch]
  split
  · rfl
  split
  · exact directive_over env s t c q steps
  split
  · rfl
  split
  · rfl
  · rfl
  · rfl
  · cases ended with
    | none => rfl
    | some statement =>
        exact congrArg some (endStatement_over env s.space c q statement t)
  · rfl
  · rfl
  · rfl
  · exact congrArg (fun u => some (done u)) (readToken_over env s t c q)

theorem stopStatement_over :
    (s.over c q).stopStatement
      = (s.stopStatement.1, s.stopStatement.2.over c q) := by
  have hstop : ∀ (P : Prop) [Decidable P] (st : Statement) (u : State),
      (if P then (none, u.over c q) else (some st, u.over c q))
        = ((if P then (none, u) else (some st, u)).1,
          (if P then (none, u) else (some st, u)).2.over c q) := by
    intro P _ st u
    split <;> rfl
  exact hstop _ _ { s with analysis :=
    { s.analysis with statement := {}, restart := false } }

theorem observe_over (skipped : Bool) :
    (s.over c q).observe t skipped
      = ((s.observe t skipped).1, (s.observe t skipped).2.over c q) := by
  unfold observe
  split
  · rfl
  · split
    · rfl
    · exact stopStatement_over s c q
  · rfl

theorem advance?_over :
    (s.over c q).advance? = s.advance?.map (·.over c q) := by
  unfold advance?
  rw [Option.map_map]
  rfl

-- ==================================================================== end

theorem endLast_over (eof : Token) :
    (s.over c q).endLast env eof = (s.endLast env eof).over c q :=
  over_ite rfl (congrArg Outcome.state (endStatement_over env
    { s with analysis := { s.analysis with statement := {} } } c q _ eof))

theorem leave_over (line : Nat) (o : OpenScope) (depth : Nat) :
    (s.over c q).leave line o depth = (s.leave line o depth).over c q := by
  unfold leave
  split
  · rename_i item _
    show (changeItem? _ _ _).getD _ = State.over ((changeItem? _ _ _).getD _) c q
    rw [changeItem?_over]
    cases s.changeItem? item _ <;> rfl
  · split <;> rfl

theorem leaveAll_over (line : Nat) (scopes : List OpenScope) :
    (s.over c q).leaveAll line scopes = (s.leaveAll line scopes).over c q := by
  induction scopes generalizing s with
  | nil => rfl
  | cons o around ih =>
      unfold leaveAll
      rw [leave_over, ih]

/-- The end of a parse. -/
theorem finish_over :
    (s.over c q).finish env = (s.finish env).over c q := by
  unfold finish
  dsimp only
  have hlast := endLast_over env
    (s.recordLine (s.rootLine s.source.cursor.current)) c q
    s.source.cursor.current
  have hrecord : (s.over c q).recordLine
      ((s.over c q).rootLine (s.over c q).source.cursor.current)
      = (s.recordLine (s.rootLine s.source.cursor.current)).over c q := rfl
  have hcurrent : (s.over c q).source.cursor.current
    = s.source.cursor.current := rfl
  rw [hrecord, hcurrent, hlast]
  exact leaveAll_over _ c q _ _

end State

end AblOutline.Parse
