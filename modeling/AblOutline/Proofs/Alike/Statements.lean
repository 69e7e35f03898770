/-
Statements ended alike. The end of a statement does the same to alike states,
where the statements that end are the same but for bytes: what is read of the
two is the same, and so is what is put down. At the end the last statement
ends and the scopes are left in both as in one, where no `&IF` is open.
-/
import AblOutline.Parse.Statements
import AblOutline.Proofs.Alike.Words
import AblOutline.Proofs.Branches

namespace AblOutline.Parse.Alike

variable {env : Environment} {s s' : State} {st st' : Statement} {t t' : Token}

-- =============================================================== reading

/-- What can be read of one statement can be read of the other. -/
theorem reading {α : Type} {bare : α → α} (h : Alike s s')
    {read read' : Except AnalysisFault α}
    (hread : read.map bare = read'.map bare) {work work' : α → Outcome}
    (hwork : ∀ a a', bare a = bare a' → Alike (work a).state (work' a').state) :
    Alike (s.reading read work).state (s'.reading read' work').state := by
  unfold State.reading
  cases read with
  | error fault =>
      cases read' with
      | error fault' => exact h
      | ok a' => cases hread
  | ok a =>
      cases read' with
      | error fault' => cases hread
      | ok a' => exact hwork a a' (Except.ok.inj hread)

/-- What is read of statements that are the same but for bytes. -/
theorem read_eq {α : Type} {bare : α → α}
    {read : Statement → Except AnalysisFault α}
    (hread : ∀ st : Statement, read st.bare = (read st).map bare)
    (hst : st.bare = st'.bare) : (read st).map bare = (read st').map bare := by
  rw [← hread, hst, hread]

theorem changing (h : Alike s s') (item : Option ItemId) {f : Item → Item}
    (hf : ∀ i : Item, (f i).bare = f i.bare) {next next' : State → Outcome}
    (hnext : ∀ u u', Alike u u' → Alike (next u).state (next' u').state) :
    Alike (s.changing item f next).state (s'.changing item f next').state := by
  unfold State.changing
  cases item with
  | none => exact hnext s s' h
  | some id =>
      dsimp only
      rcases h.changeItem? id hf with ⟨hn, hn'⟩ | ⟨u, u', hu, hu', ha⟩
      · rw [hn, hn']
        exact h
      · rw [hu, hu']
        exact hnext u u' ha

-- ============================================================== routines

theorem openRoutine (h : Alike s s') (item : ItemId) (kind : RoutineKind)
    (keyword : String) (ht : t.bare = t'.bare) :
    Alike (s.openRoutine item kind keyword t)
      (s'.openRoutine item kind keyword t') := by
  have hscope : (Scope.routine item kind keyword t).bare
      = (Scope.routine item kind keyword t').bare :=
    congrArg (Scope.routine item kind keyword) ht
  have hopen : s.nesting.openRoutines = s'.nesting.openRoutines := by
    rw [Nesting.openRoutines_blocks, h.blocks, ← Nesting.openRoutines_blocks]
  unfold State.openRoutine
  dsimp only
  rw [hopen]
  split
  · exact (h.addError .nestedRoutine ht).openScope hscope rfl ht
  · exact h.openScope hscope rfl ht

theorem endProcedure (h : Alike s s') (hst : st.bare = st'.bare) :
    Alike (s.endProcedure st).state (s'.endProcedure st').state := by
  refine h.reading (read_eq Statement.procedureHead_bare hst) ?_
  rintro ⟨opener, nameToken, name, procedure⟩ ⟨opener', nameToken', _, _⟩ hb
  injection hb with hopener htoken hname hprocedure
  subst hname hprocedure
  dsimp only
  rw [h.nextItem]
  exact (h.addItem name htoken _).openRoutine _ _ _ hopener

theorem setFunction (h : Alike s s') (name : String) (entry : FunctionEntry) :
    Alike (s.setFunction name entry) (s'.setFunction name entry) :=
  h.noting (fun a => { a with functions := _ :: a.functions }) fun _ => rfl

theorem withPrototype_bare (id : ItemId) (i : Item) :
    (State.withPrototype id i).bare = State.withPrototype id i.bare := by
  obtain ⟨_, _, _, _, _, _, _, content⟩ := i
  cases content <;> rfl

theorem withImplementation_bare (id : ItemId) (i : Item) :
    (State.withImplementation id i).bare
      = State.withImplementation id i.bare := by
  obtain ⟨_, _, _, _, _, _, _, content⟩ := i
  cases content <;> rfl

theorem endFunction (h : Alike s s') (hst : st.bare = st'.bare)
    (colon : Bool) :
    Alike (s.endFunction st colon).state (s'.endFunction st' colon).state := by
  refine h.reading (read_eq Statement.functionHead_bare hst) ?_
  rintro ⟨opener, nameToken, name, type, parameters, forward, handle, hidden⟩
    ⟨opener', nameToken', _, _, _, _, _, _⟩ hb
  injection hb with hopener htoken hname htype hparameters hforward hhandle
    hhidden
  subst hname htype hparameters hforward hhandle hhidden
  show Alike (if _ then _ else _ : Outcome).state
    (if _ then _ else _ : Outcome).state
  split
  · rw [if_pos (by assumption)]
    unfold State.addImplementation
    dsimp only
    rw [h.function?, h.nextItem]
    refine (h.addItem name htoken _).changing _ (withImplementation_bare _) ?_
    intro u u' hu
    exact (hu.setFunction name _).openRoutine _ _ _ hopener
  · rw [if_neg (by assumption)]
    unfold State.addPrototype
    dsimp only
    rw [h.function?, h.nextItem]
    refine (h.addItem name htoken _).changing _ (withPrototype_bare _) ?_
    intro u u' hu
    exact hu.setFunction name _

theorem endMethod (h : Alike s s') (hst : st.bare = st'.bare) (colon : Bool) :
    Alike (s.endMethod st colon).state (s'.endMethod st' colon).state := by
  have hread : (st.methodHead colon).map Statement.MethodHead.bare
      = (st'.methodHead colon).map Statement.MethodHead.bare := by
    rw [← st.methodHead_bare, hst, st'.methodHead_bare]
  refine h.reading hread ?_
  rintro ⟨opener, nameToken, name, method⟩ ⟨opener', nameToken', _, _⟩ hb
  injection hb with hopener htoken hname hmethod
  subst hname hmethod
  dsimp only
  rw [h.nextItem, Token.text_eq hopener]
  split
  · exact (h.addItem name htoken _).openRoutine _ _ _ hopener
  · exact h.addItem name htoken _

-- =============================================================== actions

theorem trigger_eq (hst : st.bare = st'.bare) : st.trigger = st'.trigger := by
  show st.bare.trigger = st'.bare.trigger
  rw [hst]

theorem kind_eq (hst : st.bare = st'.bare) : st.kind = st'.kind := by
  show st.bare.kind = st'.bare.kind
  rw [hst]

theorem endOn (h : Alike s s') (hst : st.bare = st'.bare) :
    Alike (s.endOn st).state (s'.endOn st').state := by
  unfold State.endOn
  rw [← st.namesWidgets_bare, hst, st'.namesWidgets_bare]
  split
  · exact h.reading (read_eq Statement.opening_bare hst) fun t t' ht =>
      h.addTrigger hst ht
  · exact h

theorem endRun (h : Alike s s') (hst : st.bare = st'.bare) :
    Alike (s.endRun st).state (s'.endRun st').state := by
  refine h.reading (read_eq Statement.runHead_bare hst) ?_
  rintro ⟨token, run⟩ ⟨token', _⟩ hb
  injection hb with htoken hrun
  subst hrun
  exact h.addItem run.target htoken _

-- =========================================================== definitions

theorem setLocalTable (h : Alike s s') (name : String) (temporary : Bool) :
    Alike (s.setLocalTable name temporary) (s'.setLocalTable name temporary) :=
  h.noting (fun a => { a with localTables := _ :: a.localTables }) fun _ => rfl

theorem openAccessor (h : Alike s s') (hst : st.bare = st'.bare)
    (colon : Bool) :
    Alike (s.openAccessor st colon) (s'.openAccessor st' colon) := by
  have haccessor : st.accessor?.map Token.bare = st'.accessor?.map Token.bare := by
    rw [← st.accessor?_bare, hst, st'.accessor?_bare]
  unfold State.openAccessor
  cases colon with
  | false => exact h
  | true =>
      rw [if_pos rfl, if_pos rfl]
      cases ha : st.accessor? with
      | none =>
          rw [ha] at haccessor
          rw [Option.map_eq_none_iff.1 haccessor.symm]
          exact h
      | some opener =>
          rw [ha] at haccessor
          obtain ⟨opener', ha', ht⟩ := Option.map_eq_some_iff.1 haccessor.symm
          rw [ha']
          dsimp only
          rw [Token.text_eq ht]
          exact h.openScope
            (congrArg (Scope.block · (Text.upper opener.text) none) ht.symm) rfl
            ht.symm

theorem endDefine (h : Alike s s') (hst : st.bare = st'.bare) (colon : Bool) :
    Alike (s.endDefine st colon).state (s'.endDefine st' colon).state := by
  refine h.reading (read_eq Statement.defined_bare hst) ?_
  intro d d' hd
  cases d with
  | nothing =>
      cases d' with
      | nothing => exact h
      | _ => cases hd
  | buffer token name table temporary =>
      cases d' with
      | buffer token' _ _ _ =>
          injection hd with htoken hname htable htemporary
          subst hname htable htemporary
          show Alike (s.addBuffer token name table temporary)
            (s'.addBuffer token' name table temporary)
          unfold State.addBuffer
          dsimp only
          rw [h.localTable?]
          exact (h.setLocalTable name _).addItem name htoken _
      | _ => cases hd
  | event token name =>
      cases d' with
      | event token' _ =>
          injection hd with htoken hname
          subst hname
          exact (h.addItem name htoken .event).openAccessor hst colon
      | _ => cases hd
  | definition token name definition =>
      cases d' with
      | definition token' _ _ =>
          injection hd with htoken hname hdefinition
          subst hname hdefinition
          have hadd : Alike (s.addDefinition token name definition)
              (s'.addDefinition token' name definition) := by
            unfold State.addDefinition
            dsimp only
            split
            · exact (h.setLocalTable name true).addItem name htoken _
            · exact h.addItem name htoken _
          exact hadd.openAccessor hst colon
      | _ => cases hd

/-- Items found one after another. -/
theorem addItems (h : Alike s s') (content : Item.Content) {ts ts' : List Token}
    (hts : ts.map Token.bare = ts'.map Token.bare) :
    Alike (ts.foldl (fun s t => s.addItem t.text t content) s)
      (ts'.foldl (fun s t => s.addItem t.text t content) s') := by
  induction ts generalizing s s' ts' with
  | nil =>
      rw [List.map_eq_nil_iff.1 hts.symm]
      exact h
  | cons t ts ih =>
      obtain ⟨t', rest, rfl, ht, hrest⟩ := List.map_eq_cons_iff.1 hts.symm
      rw [List.foldl_cons, List.foldl_cons, Token.text_eq ht]
      exact ih (h.addItem t.text ht.symm content) hrest.symm

theorem endVar (h : Alike s s') (hst : st.bare = st'.bare) :
    Alike (s.endVar st).state (s'.endVar st').state := by
  refine h.reading (read_eq Statement.varHead_bare hst) ?_
  rintro ⟨names, definition⟩ ⟨names', _⟩ hb
  injection hb with hnames hdefinition
  subst hdefinition
  exact h.addItems _ hnames

-- ================================================================ blocks

theorem endLabel (h : Alike s s') (hst : st.bare = st'.bare) :
    Alike (s.endLabel env st).1 (s'.endLabel env st').1
      ∧ (s.endLabel env st).2 = (s'.endLabel env st').2 := by
  have hparts : st.parts.map Part.bare = st'.parts.map Part.bare :=
    congrArg Statement.parts hst
  unfold State.endLabel
  match hp : st.parts, hp' : st'.parts with
  | [], [] => exact ⟨h, rfl⟩
  | [p], [p'] =>
      rw [hp, hp'] at hparts
      have ht : p.token.bare = p'.token.bare :=
        congrArg Part.token (List.singleton_inj.1 hparts)
      dsimp only
      rw [Token.kind_eq ht, Token.text_eq ht, h.nextItem]
      split
      · refine ⟨?_, rfl⟩
        exact (h.addItem p'.token.text ht (.label none)).noting
          (fun a => { a with pendingLabel := _ }) fun _ => rfl
      · exact ⟨h, rfl⟩
  | _ :: _ :: _, _ :: _ :: _ => exact ⟨h, rfl⟩
  | [], _ :: _ | _ :: _, [] | [_], _ :: _ :: _ | _ :: _ :: _, [_] =>
      have hlength := congrArg List.length hparts
      rw [hp, hp'] at hlength
      simp at hlength

theorem withBlock_bare (i : Item) :
    (State.withBlock i).bare = State.withBlock i.bare := by
  obtain ⟨_, _, _, _, _, _, _, content⟩ := i
  cases content <;> rfl

theorem withKeyword_bare (keyword : String) (i : Item) :
    (State.withKeyword keyword i).bare = State.withKeyword keyword i.bare := by
  obtain ⟨_, _, _, _, _, _, _, content⟩ := i
  cases content <;> rfl

theorem endBlockHead (h : Alike s s') (hst : st.bare = st'.bare) :
    Alike (s.endBlockHead st).state (s'.endBlockHead st').state := by
  refine h.reading (read_eq Statement.opening_bare hst) fun t t' ht => ?_
  dsimp only
  rw [Token.text_eq ht, trigger_eq hst, h.pendingLabel]
  split
  · refine h.changing _ withBlock_bare fun u u' hu => ?_
    exact hu.openScope (congrArg (Scope.routine _ .trigger _) ht) rfl ht
  · have hnoted := h.noting (fun a => { a with pendingLabel := none })
      fun _ => rfl
    refine hnoted.changing _ (withKeyword_bare _) fun u u' hu => ?_
    exact hu.openScope (congrArg (Scope.block · _ _) ht) rfl ht

theorem isMismatched (hst : st.bare = st'.bare) (keyword : String) :
    State.isMismatched st keyword = State.isMismatched st' keyword := by
  have hsame : ∀ st : Statement,
      State.isMismatched st.bare keyword = State.isMismatched st keyword := by
    intro st
    unfold State.isMismatched
    rw [st.token?_bare]
    cases st.token? 1 <;> rfl
  rw [← hsame, hst, hsame]

theorem endedBy_bare (scope : Scope) :
    State.endedBy scope.bare = State.endedBy scope := by
  cases scope <;> rfl

theorem endBlock (h : Alike s s') (hst : st.bare = st'.bare) :
    Alike (s.endBlock st).state (s'.endBlock st').state := by
  refine h.reading (read_eq Statement.opening_bare hst) fun t t' ht => ?_
  rcases Nesting.endBlock?_blocks h.blocks with ⟨hn, hn'⟩
    | ⟨scope, scope', m, m', hn, hn', hscope, hm⟩
  · rw [hn, hn']
    exact h.addError .unexpectedEnd ht
  · have hended : State.endedBy scope = State.endedBy scope' := by
      rw [← endedBy_bare, hscope, endedBy_bare]
    rw [hn, hn']
    dsimp only
    rw [hended, isMismatched hst, h.rootLine ht]
    have hclosed : Alike { s with nesting := m } { s' with nesting := m' } :=
      ⟨h.chain, hm, h.items, h.errors, h.analysis⟩
    have hend : ∀ u u', Alike u u' → Alike (u.changing (State.endedBy scope').2
          (fun i => { i with endLine := some (s'.rootLine t') })
          State.done).state
        (u'.changing (State.endedBy scope').2
          (fun i => { i with endLine := some (s'.rootLine t') })
          State.done).state := by
      intro u u' hu
      refine hu.changing _ ?_ fun _ _ hv => hv
      exact fun _ => rfl
    split
    · exact hend _ _ (hclosed.addErrorAt ..)
    · exact hend _ _ hclosed

-- ============================================================ statements

theorem endByKind (h : Alike s s') (hst : st.bare = st'.bare) (colon : Bool) :
    Alike (s.endByKind env st colon).1.state
        (s'.endByKind env st' colon).1.state
      ∧ (s.endByKind env st colon).2 = (s'.endByKind env st' colon).2 := by
  unfold State.endByKind
  rw [kind_eq hst]
  cases st'.kind with
  | procedure => exact ⟨h.endProcedure hst, rfl⟩
  | function => exact ⟨h.endFunction hst colon, rfl⟩
  | method => exact ⟨h.endMethod hst colon, rfl⟩
  | constructor => exact ⟨h.endMethod hst colon, rfl⟩
  | destructor => exact ⟨h.endMethod hst colon, rfl⟩
  | on => exact ⟨h.endOn hst, rfl⟩
  | run => exact ⟨h.endRun hst, rfl⟩
  | define => exact ⟨h.endDefine hst colon, rfl⟩
  | var => exact ⟨h.endVar hst, rfl⟩
  | close => exact ⟨h.endBlock hst, rfl⟩
  | block => exact ⟨h.endBlockHead hst, rfl⟩
  | accessor =>
      refine ⟨?_, rfl⟩
      cases colon with
      | false => exact h
      | true => exact h.endBlockHead hst
  | other =>
      cases colon with
      | false => exact ⟨h, rfl⟩
      | true => exact h.endLabel hst

theorem under (h : Alike s s') (trigger : Option ItemId) :
    Alike (s.under trigger) (s'.under trigger) :=
  h.noting (fun a => { a with statement := { a.statement with trigger } })
    fun _ => rfl

/-- The end of a statement does the same to alike states. -/
theorem endStatement (h : Alike s s') (hst : st.bare = st'.bare)
    (ht : t.text = t'.text) :
    Alike (s.endStatement env st t).state
      (s'.endStatement env st' t').state := by
  have hkind := @Alike.endByKind env _ _ _ _ (h.under st'.trigger) hst
    (t'.text == ":")
  unfold State.endStatement
  dsimp only
  rw [trigger_eq hst, h.trigger, ht, hkind.2]
  have hunder := hkind.1.under s'.analysis.statement.trigger
  cases ((s'.under st'.trigger).endByKind env st' (t'.text == ":")).2 with
  | false =>
      exact hunder.noting (fun a => { a with pendingLabel := none })
        fun _ => rfl
  | true => exact hunder

end AblOutline.Parse.Alike

namespace AblOutline

/-- Where no `&IF` is open the blocks are all scopes. -/
theorem Nesting.blocks_eq {n : Nesting} (h : Tracks n.scopes []) :
    n.blocks = n.scopes.map OpenScope.bare := by
  unfold blocks
  rw [List.filter_eq_self.2 fun o ho => by rw [h.of_nil o ho]; rfl]

namespace Parse

variable (env : Environment) {s s' : State} {t t' : Token}

namespace Alike

theorem endLast (h : Alike s s') (hf : s.inFalseBranch = s'.inFalseBranch)
    (ht : t.text = t'.text) : Alike (s.endLast env t) (s'.endLast env t') := by
  have hempty : s.analysis.statement.isEmpty
      = s'.analysis.statement.isEmpty := by
    rw [← Statement.isEmpty_bare, h.statement, Statement.isEmpty_bare]
  have htaken : Alike s.takeStatement.2 s'.takeStatement.2 :=
    h.noting (fun a => { a with statement := {} }) fun _ => rfl
  have hlast : ∀ (u : State) (t : Token), u.endLast env t
      = if u.analysis.statement.isEmpty || u.inFalseBranch
        then u.takeStatement.2
        else (u.takeStatement.2.endStatement env u.analysis.statement t).state :=
    fun _ _ => rfl
  rw [hlast, hlast, hempty, hf]
  split
  · exact htaken
  · exact htaken.endStatement h.statement ht

/-- A scope is left. -/
theorem leave (h : Alike s s') {o o' : OpenScope} (ho : o.bare = o'.bare)
    (line depth depth' : Nat) :
    Alike (s.leave line o depth) (s'.leave line o' depth') := by
  obtain ⟨scope, opened⟩ := o
  obtain ⟨scope', opened'⟩ := o'
  injection ho with hscope hopened
  cases hopened
  have hadd : ∀ fault t t', Alike (s.addErrorAt fault t opened depth)
      (s'.addErrorAt fault t' opened depth') :=
    fun fault t t' => h.addErrorAt fault t t' opened depth depth'
  cases scope with
  | file item =>
      cases scope' with
      | file item' =>
          cases hscope
          show Alike ((s.changeItem? item _).getD s)
            ((s'.changeItem? item _).getD s')
          rcases h.changeItem? item (f := fun i =>
              { i with endLine := some line }) fun _ => rfl with
            ⟨hn, hn'⟩ | ⟨u, u', hn, hn', hu⟩
          · rw [hn, hn']
            exact h
          · rw [hn, hn']
            exact hu
      | _ => cases hscope
  | routine => cases scope' <;> first | exact hadd .. | cases hscope
  | conditional => cases scope' <;> first | exact hadd .. | cases hscope
  | suspended => cases scope' <;> first | exact hadd .. | cases hscope
  | block => cases scope' <;> first | exact hadd .. | cases hscope

/-- All scopes are left. -/
theorem leaveAll (h : Alike s s') (line : Nat) {scopes scopes' : List OpenScope}
    (hs : scopes.map OpenScope.bare = scopes'.map OpenScope.bare) :
    Alike (s.leaveAll line scopes) (s'.leaveAll line scopes') := by
  induction scopes generalizing s s' scopes' with
  | nil =>
      rw [List.map_eq_nil_iff.1 hs.symm]
      exact h
  | cons o around ih =>
      obtain ⟨o', around', rfl, ho, haround⟩ := List.map_eq_cons_iff.1 hs.symm
      exact ih (h.leave ho.symm line _ _) haround.symm

/-- The end of the tokens does the same to both. -/
theorem finish (h : Alike s s') (hs : Sound s) (hs' : Sound s')
    (ht : Tracks s.nesting.scopes []) (ht' : Tracks s'.nesting.scopes [])
    (hline : s.rootLine s.source.cursor.current
      = s'.rootLine s'.source.cursor.current)
    (htext : s.source.cursor.current.text = s'.source.cursor.current.text) :
    Alike (s.finish env) (s'.finish env)
      ∧ (s.finish env).nesting.depth = (s'.finish env).nesting.depth := by
  have hfalse : s.inFalseBranch = s'.inFalseBranch := by
    show s.nesting.inFalseBranch = s'.nesting.inFalseBranch
    rw [ht.inFalseBranch_eq, ht'.inFalseBranch_eq]
  have hlast : ∀ line, Alike
      ((s.recordLine line).endLast env s.source.cursor.current)
      ((s'.recordLine line).endLast env s'.source.cursor.current) := by
    intro line
    have hrecorded : Alike (s.recordLine line) (s'.recordLine line) :=
      ⟨h.chain, h.blocks, h.items, h.errors, h.analysis⟩
    exact hrecorded.endLast env hfalse htext
  -- the statement that ends may open a scope, but no `&IF`
  have htracks : ∀ {u : State} (line : Nat) (eof : Token), Sound u →
      Tracks u.nesting.scopes [] →
      Tracks ((u.recordLine line).endLast env eof).nesting.scopes [] := by
    intro u line eof hu htu
    have hline : Keeps u (u.recordLine line) := .one fun _ => .lineEnded u line
    exact Changes.tracks ((hline.trans (endLast_keeps env _ eof)) hu) htu
  have hfinish : Alike (s.finish env) (s'.finish env) := by
    unfold State.finish
    dsimp only
    rw [hline]
    refine (hlast _).leaveAll _ ?_
    rw [← Nesting.blocks_eq (htracks _ _ hs ht),
      ← Nesting.blocks_eq (htracks _ _ hs' ht'), (hlast _).blocks]
  refine ⟨hfinish, ?_⟩
  have hdepth : ∀ {u : State}, Sound u → Tracks u.nesting.scopes [] →
      (u.finish env).nesting.depth = (u.finish env).nesting.blocks.length := by
    intro u hu htu
    have htracks := Changes.tracks (finish_keeps env u hu) htu
    rw [Nesting.blocks_eq htracks, List.length_map]
    rfl
  rw [hdepth hs ht, hdepth hs' ht', hfinish.blocks]

end Alike

end Parse

end AblOutline
