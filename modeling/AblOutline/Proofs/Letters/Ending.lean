/-
Ends of statements in small letters. What a statement declares, opens or
closes is put down in small letters as it is read in them. Where the statement
sets a trigger, the two states are the same only once both are made small; so
they are for every statement (`State.endStatement_small`).
-/
import AblOutline.Proofs.Letters.Words

namespace AblOutline.Parse

open Text

theorem Outcome.small_ite {P : Prop} [Decidable P] {o o' v v' : Outcome}
    (ho : o' = o.small) (hv : v' = v.small) :
    (if P then o' else v') = (if P then o else v).small := by
  split
  · exact ho
  · exact hv

theorem Outcome.small_small (o : Outcome) : o.small.small = o.small := by
  obtain ⟨s, fault⟩ := o
  have htwice : ∀ f : AnalysisFault, f.small.small = f.small := by
    intro f
    cases f with
    | missingName keyword line =>
        exact congrArg (AnalysisFault.missingName · line) (lower_lower keyword)
    | danglingItem | noScope => rfl
  unfold small
  rw [State.small_small, Option.map_map]
  exact congrArg (fun f => Outcome.mk s.small (fault.map f)) (funext htwice)

namespace State

variable (env : Environment) (s : State) (st : Statement) (t : Token)
  (colon : Bool)

-- =============================================================== reading

/-- What is done with what was read. -/
theorem reading_small {α : Type} {small : α → α}
    (read : Except AnalysisFault α) {work work' : α → Outcome}
    (h : ∀ a, work' (small a) = (work a).small) :
    s.small.reading (smallRead small read) work'
      = (s.reading read work).small := by
  unfold reading
  cases read with
  | error fault => rfl
  | ok a => exact h a

theorem changing_small {s s' : State} (hs : s' = s.small)
    (item : Option ItemId) {f f' : Item → Item}
    (hf : ∀ i : Item, f' i.small = (f i).small) {next next' : State → Outcome}
    (hnext : ∀ u : State, next' u.small = (next u).small) :
    s'.changing item f' next' = (s.changing item f next).small := by
  subst hs
  unfold changing
  cases item with
  | none => exact hnext s
  | some id =>
      dsimp only
      rw [s.changeItem?_small id hf]
      cases s.changeItem? id f with
      | none => rfl
      | some u => exact hnext u

-- ============================================================== routines

theorem openRoutine_small (item : ItemId) (kind : RoutineKind)
    (keyword : String) :
    s.small.openRoutine item kind keyword t.small
      = (s.openRoutine item kind keyword t).small := by
  have hopen : s.small.nesting.openRoutines = s.nesting.openRoutines :=
    Nesting.openRoutines_small _
  have hscope : ∀ u : State,
      u.small.openScope (.routine item kind keyword t.small) t.small
        = (u.openScope (.routine item kind keyword t) t).small :=
    fun u => u.openScope_small t (.routine item kind keyword t)
  unfold openRoutine
  dsimp only
  rw [hopen, addError_small]
  split
  · exact hscope _
  · exact hscope s

theorem endProcedure_small :
    s.small.endProcedure st.small = (s.endProcedure st).small := by
  unfold endProcedure
  rw [Statement.procedureHead_small]
  refine reading_small s _ fun head => ?_
  have hadd := s.addItem_small head.nameToken head.name
    (.procedure head.procedure)
  dsimp only
  rw [nextItem_small, Outcome.small_done, ← openRoutine_small, ← hadd]
  rfl

theorem setFunction_small (name : String) (entry : FunctionEntry) :
    s.small.setFunction (lower name) entry
      = (s.setFunction name entry).small := by
  unfold setFunction
  rw [lower_lower]
  rfl

theorem withPrototype_small (id : ItemId) (i : Item) :
    withPrototype id i.small = (withPrototype id i).small := by
  obtain ⟨_, _, _, _, _, _, _, content⟩ := i
  cases content <;> rfl

theorem withImplementation_small (id : ItemId) (i : Item) :
    withImplementation id i.small = (withImplementation id i).small := by
  obtain ⟨_, _, _, _, _, _, _, content⟩ := i
  cases content <;> rfl

theorem addPrototype_small (head : Statement.FunctionHead) :
    s.small.addPrototype head.small = (s.addPrototype head).small := by
  have hfunction : s.small.function? head.small.name
      = s.function? head.name := s.function?_small head.name
  unfold addPrototype
  dsimp only
  rw [hfunction, nextItem_small]
  have hadd := s.addItem_small head.nameToken head.name (.prototype {
    returnType := head.returnType, parameters := head.parameters
    forward := head.forward, inHandle := head.inHandle
    implementation := ((s.function? head.name).getD {}).implementation })
  exact changing_small hadd _ (withPrototype_small _) fun u =>
    congrArg done (u.setFunction_small head.name _)

theorem addImplementation_small (head : Statement.FunctionHead) :
    s.small.addImplementation head.small
      = (s.addImplementation head).small := by
  have hfunction : s.small.function? head.small.name
      = s.function? head.name := s.function?_small head.name
  unfold addImplementation
  dsimp only
  rw [hfunction, nextItem_small]
  have hadd := s.addItem_small head.nameToken head.name (.implementation {
    returnType := head.returnType, parameters := head.parameters
    isPrivate := head.isPrivate
    prototype := ((s.function? head.name).getD {}).prototype })
  refine changing_small hadd _ (withImplementation_small _) fun u => ?_
  rw [Outcome.small_done, ← openRoutine_small, ← setFunction_small]
  rfl

theorem endFunction_small :
    s.small.endFunction st.small colon = (s.endFunction st colon).small := by
  unfold endFunction
  rw [Statement.functionHead_small]
  refine reading_small s _ fun head => ?_
  have hbody : head.small.hasBody colon = head.hasBody colon := by
    unfold Statement.FunctionHead.hasBody
    show (colon && !head.forward && (head.inHandle.map lower).isNone) = _
    rw [Option.isNone_map]
  rw [hbody]
  exact Outcome.small_ite (addImplementation_small s head)
    (addPrototype_small s head)

theorem endMethod_small :
    s.small.endMethod st.small colon = (s.endMethod st colon).small := by
  unfold endMethod
  rw [Statement.methodHead_small]
  refine reading_small s _ fun head => ?_
  have hadd : s.small.addItem head.small.name head.small.nameToken
        (.method head.small.method)
      = (s.addItem head.name head.nameToken (.method head.method)).small :=
    s.addItem_small head.nameToken head.name (.method head.method)
  have hkeyword : upper head.small.opener.text = upper head.opener.text :=
    upper_lower head.opener.text
  dsimp only
  rw [hadd, hkeyword, nextItem_small,
    show head.small.opener = head.opener.small from rfl, openRoutine_small]
  exact Outcome.small_ite rfl rfl

-- =============================================================== actions

theorem endOn_small : (s.small.endOn st.small).small = (s.endOn st).small := by
  unfold endOn
  rw [Statement.namesWidgets_small, Statement.opening_small]
  split
  · unfold reading
    cases st.opening with
    | error fault => exact Outcome.small_small (s.refused fault)
    | ok first => exact congrArg done (s.addTrigger_small first st)
  · exact congrArg done s.small_small

theorem endRun_small : s.small.endRun st.small = (s.endRun st).small := by
  unfold endRun
  rw [Statement.runHead_small]
  exact reading_small s _ fun head => congrArg done
    (s.addItem_small head.targetToken head.run.target (.run head.run))

-- =========================================================== definitions

theorem setLocalTable_small (name : String) (temporary : Bool) :
    s.small.setLocalTable (lower name) temporary
      = (s.setLocalTable name temporary).small := by
  unfold setLocalTable
  rw [lower_lower]
  rfl

theorem addBuffer_small (name table : String) (temporary : Bool) :
    s.small.addBuffer t.small (lower name) (lower table) temporary
      = (s.addBuffer t name table temporary).small := by
  unfold addBuffer
  dsimp only
  rw [localTable?_small, setLocalTable_small]
  exact addItem_small _ t name (.buffer table _)

theorem addDefinition_small (name : String) (d : Item.Definition) :
    s.small.addDefinition t.small (lower name) d.small
      = (s.addDefinition t name d).small := by
  have hadd : ∀ {u u' : State}, u' = u.small →
      u'.addItem (lower name) t.small (.definition d.small)
        = (u.addItem name t (.definition d)).small := by
    rintro u _ rfl
    exact u.addItem_small t name (.definition d)
  unfold addDefinition
  exact hadd (small_ite (s.setLocalTable_small name true) rfl)

theorem openAccessor_small :
    s.small.openAccessor st.small colon = (s.openAccessor st colon).small := by
  unfold openAccessor
  rw [Statement.accessor?_small]
  cases colon with
  | false => rfl
  | true =>
      rw [if_pos rfl, if_pos rfl]
      cases st.accessor? with
      | none => rfl
      | some opener =>
          show s.small.openScope (.block opener.small
            (upper (lower opener.text)) none) opener.small = _
          rw [upper_lower]
          rfl

theorem endDefine_small :
    s.small.endDefine st.small colon = (s.endDefine st colon).small := by
  unfold endDefine
  rw [Statement.defined_small]
  refine reading_small s _ fun defined => ?_
  cases defined with
  | nothing => rfl
  | buffer nameToken name table temporary =>
      exact congrArg done (s.addBuffer_small nameToken name table temporary)
  | event nameToken name =>
      refine congrArg done (Eq.trans ?_ (openAccessor_small _ st colon))
      exact congrArg (·.openAccessor st.small colon)
        (s.addItem_small nameToken name .event)
  | definition nameToken name d =>
      refine congrArg done (Eq.trans ?_ (openAccessor_small _ st colon))
      exact congrArg (·.openAccessor st.small colon)
        (s.addDefinition_small nameToken name d)

theorem endVar_small : s.small.endVar st.small = (s.endVar st).small := by
  have hnames : ∀ (content : Item.Content) (ts : List Token) (u : State),
      (ts.map Token.small).foldl
          (fun s t => s.addItem t.text t content.small) u.small
        = (ts.foldl (fun s t => s.addItem t.text t content) u).small := by
    intro content ts
    induction ts with
    | nil => exact fun _ => rfl
    | cons t ts ih =>
        intro u
        rw [List.map_cons, List.foldl_cons, List.foldl_cons, ← ih,
          ← addItem_small]
        rfl
  unfold endVar
  rw [Statement.varHead_small]
  exact reading_small s _ fun v => congrArg done
    (hnames (.definition v.definition) v.names s)

-- ================================================================ blocks

theorem endLabel_small :
    s.small.endLabel env.small st.small
      = Prod.map small id (s.endLabel env st) := by
  obtain ⟨kind, parts, trigger⟩ := st
  unfold endLabel
  match parts with
  | [] => rfl
  | [p] =>
      have hkeyword : env.small.directory.isKeyword p.small.token.text
          = env.directory.isKeyword p.token.text :=
        Directory.isKeyword_lower _ _
      have hadd : s.small.addItem p.small.token.text p.small.token
            (.label none)
          = (s.addItem p.token.text p.token (.label none)).small :=
        s.addItem_small p.token p.token.text (.label none)
      show (if p.token.kind = .word
        ∧ !env.small.directory.isKeyword p.small.token.text then _ else _) = _
      dsimp only
      rw [hkeyword, hadd, nextItem_small]
      split <;> rfl
  | _ :: _ :: _ => rfl

theorem withBlock_small (i : Item) :
    withBlock i.small = (withBlock i).small := by
  obtain ⟨_, _, _, _, _, _, _, content⟩ := i
  cases content <;> rfl

theorem withKeyword_small (keyword : String) (i : Item) :
    withKeyword keyword i.small = (withKeyword keyword i).small := by
  obtain ⟨_, _, _, _, _, _, _, content⟩ := i
  cases content <;> rfl

theorem endBlockHead_small :
    s.small.endBlockHead st.small = (s.endBlockHead st).small := by
  unfold endBlockHead
  rw [Statement.opening_small]
  refine reading_small s _ fun opener => ?_
  dsimp only
  rw [Token.text_small, upper_lower, show st.small.trigger = st.trigger from
    rfl]
  cases if upper opener.text = "DO" then st.trigger else none with
  | some trigger =>
      refine changing_small rfl _ withBlock_small fun u => ?_
      rfl
  | none =>
      refine changing_small (s := { s with analysis :=
        { s.analysis with pendingLabel := none } }) rfl _ (withKeyword_small _)
        fun u => ?_
      rfl

theorem isMismatched_small (keyword : String) :
    isMismatched st.small keyword = isMismatched st keyword := by
  unfold isMismatched
  rw [Statement.token?_small]
  cases st.token? 1 with
  | none => rfl
  | some t =>
      show (t.kind == .word && !abbreviates (lower t.text) keyword _) = _
      rw [abbreviates_lower]

theorem endBlock_small :
    s.small.endBlock st.small = (s.endBlock st).small := by
  have hclosed : s.small.nesting.endBlock?
      = s.nesting.endBlock?.map (Prod.map Scope.small Nesting.small) :=
    Nesting.endBlock?_small _
  have hdepth : s.small.nesting.depth = s.nesting.depth :=
    Nesting.depth_small _
  unfold endBlock
  rw [Statement.opening_small]
  refine reading_small s _ fun stop => ?_
  rw [hclosed]
  cases s.nesting.endBlock? with
  | none => exact congrArg done (s.addError_small stop .unexpectedEnd)
  | some closed =>
      obtain ⟨scope, nesting⟩ := closed
      have hended : endedBy scope.small = endedBy scope := by
        cases scope <;> rfl
      have hadd : ∀ u : State, ∀ line : Nat,
          u.small.addErrorAt .mismatchedEnd stop.small line s.nesting.depth
            = (u.addErrorAt .mismatchedEnd stop line s.nesting.depth).small :=
        fun u line => u.addErrorAt_small stop .mismatchedEnd line _
      dsimp only [Option.map, Prod.map]
      rw [hended, isMismatched_small, hdepth, rootLine_small]
      have hclosed : (if isMismatched st (endedBy scope).1 then
            addErrorAt { s.small with nesting := nesting.small } .mismatchedEnd
              stop.small (s.rootLine stop) s.nesting.depth
          else { s.small with nesting := nesting.small })
        = (if isMismatched st (endedBy scope).1 then
            addErrorAt { s with nesting } .mismatchedEnd stop (s.rootLine stop)
              s.nesting.depth
          else { s with nesting }).small :=
        small_ite (hadd { s with nesting } _) rfl
      refine changing_small hclosed _ ?_ ?_
      · exact fun _ => rfl
      · exact fun _ => rfl

-- ============================================================ statements

/-- What the end of a statement does by its kind. -/
theorem endByKind_small :
    (s.small.endByKind env.small st.small colon).1.small
        = (s.endByKind env st colon).1.small
      ∧ (s.small.endByKind env.small st.small colon).2
        = (s.endByKind env st colon).2 := by
  have hsame : ∀ {o o' : Outcome}, o' = o.small → o'.small = o.small := by
    rintro o _ rfl
    exact o.small_small
  unfold endByKind
  rw [show st.small.kind = st.kind from rfl]
  cases st.kind with
  | procedure => exact ⟨hsame (endProcedure_small s st), rfl⟩
  | function => exact ⟨hsame (endFunction_small s st colon), rfl⟩
  | method => exact ⟨hsame (endMethod_small s st colon), rfl⟩
  | constructor => exact ⟨hsame (endMethod_small s st colon), rfl⟩
  | destructor => exact ⟨hsame (endMethod_small s st colon), rfl⟩
  | on => exact ⟨endOn_small s st, rfl⟩
  | run => exact ⟨hsame (endRun_small s st), rfl⟩
  | define => exact ⟨hsame (endDefine_small s st colon), rfl⟩
  | var => exact ⟨hsame (endVar_small s st), rfl⟩
  | close => exact ⟨hsame (endBlock_small s st), rfl⟩
  | block => exact ⟨hsame (endBlockHead_small s st), rfl⟩
  | accessor =>
      cases colon with
      | false => exact ⟨hsame rfl, rfl⟩
      | true => exact ⟨hsame (endBlockHead_small s st), rfl⟩
  | other =>
      cases colon with
      | false => exact ⟨hsame rfl, rfl⟩
      | true =>
          dsimp only
          rw [endLabel_small]
          exact ⟨hsame rfl, rfl⟩

/-- The end of a statement. -/
theorem endStatement_small :
    (s.small.endStatement env.small st.small t.small).small
      = (s.endStatement env st t).small := by
  obtain ⟨hstate, hlabel⟩ := endByKind_small env (s.under st.trigger) st
    (t.text == ":")
  have hunder : s.small.under st.small.trigger
      = (s.under st.trigger).small := rfl
  have hcolon : (t.small.text == ":") = (t.text == ":") :=
    lower_beq t.text rfl
  unfold endStatement
  rw [hunder, hcolon]
  dsimp only
  rw [hlabel]
  generalize ((s.under st.trigger).endByKind env st (t.text == ":")).2 = label
  exact congrArg (fun o : Outcome =>
    let u := o.state.under s.analysis.statement.trigger
    let pendingLabel := if label then u.analysis.pendingLabel else none
    { o with state :=
      { u with analysis := { u.analysis with pendingLabel } } }) hstate

end State

end AblOutline.Parse
