/-
Statements are read and ended by changes alone. Each part of `readToken` is a
`Keeps`, so a token of a statement, whatever it is, keeps the invariant of the
parse.

What a statement opens belongs to an item that it has just added, or, for the
block of a trigger, to the trigger whose action it is; what it refers to was
learned from earlier statements. So the end of a statement keeps the invariant
of the parse, also when it faults.
-/
import AblOutline.Parse.Statements
import AblOutline.Proofs.Change
import AblOutline.Proofs.Entries

namespace AblOutline.Parse

section Words

variable (env : Environment) (s : State) (t : Token)

-- ================================================================ items

theorem addCall_keeps (name : String) (dynamic : Bool) :
    Keeps s (s.addCall name t dynamic) :=
  .found _ _ _ (by simp [Item.Content.reportName])

theorem useTable_keeps (table : String) (temporary : Bool) :
    Keeps s (s.useTable t table temporary) := by
  unfold State.useTable
  dsimp only
  split
  · exact .refl s
  · have hf : Keeps s (s.addItem table t (.tableUse temporary)) :=
      .found _ _ _ (by simp [Item.Content.reportName])
    exact hf.trans (.noted _ _ rfl rfl rfl)

theorem addUnknown_keeps : Keeps s (s.addUnknown t) := by
  unfold State.addUnknown
  dsimp only
  split
  · exact .refl s
  · have hf : Keeps s (s.addItem t.text t .word) :=
      .found _ _ _ (by simp [Item.Content.reportName])
    exact hf.trans (.noted _ _ rfl rfl rfl)

theorem useNames_keeps : Keeps s (s.useNames env t) := by
  have table : ∀ use : Option (String × Bool),
      Keeps s (use.elim s fun use => s.useTable t use.1 use.2) := by
    intro use
    cases use with
    | none => exact .refl s
    | some use => exact useTable_keeps s t use.1 use.2
  rw [State.useNames_eq]
  dsimp only
  split
  · exact (table _).trans (addUnknown_keeps _ t)
  · exact table _

theorem lookAtWord_keeps (spaced : Bool) :
    Keeps s (s.lookAtWord env t spaced) := by
  unfold State.lookAtWord
  split
  · exact .found _ _ _ (by simp [Item.Content.reportName])
  · split
    · split
      · exact addCall_keeps s t _ _
      · exact .refl s
    · split
      · exact addCall_keeps s t _ _
      · exact useNames_keeps env s t

-- =========================================================== statements

/-- A statement begins as the action of a trigger that is there, or of
none. -/
theorem beginStatement_keeps (trigger : Option ItemId)
    (h : Sound s → ∀ id, trigger = some id → IsA s.findings.items id "on") :
    Keeps s (s.beginStatement t trigger) :=
  .one fun hs => .noted s _
    { trigger := fun {id} ht => h hs id ht
      label := hs.analysis.label
      prototype := hs.analysis.prototype
      implementation := hs.analysis.implementation }

theorem addTrigger_keeps (statement : Statement) :
    Keeps s (s.addTrigger statement t) :=
  .found _ _ _ (by simp [Item.Content.reportName])

theorem beginAtWord_keeps : Keeps s (s.beginAtWord t) := by
  unfold State.beginAtWord
  dsimp only
  split
  · exact beginStatement_keeps s t none fun _ id h => nomatch h
  · rename_i first _
    split
    · exact beginStatement_keeps s t _ fun hs id h => hs.analysis.trigger h
    · split
      · -- the trigger just found gets the number asked for
        intro hs
        have hadd := addTrigger_keeps s first s.analysis.statement
        refine (hadd.trans (beginStatement_keeps _ t _ ?_)) hs
        intro _ id h
        cases h
        exact hs.isA_nextItem _ _ _
      · exact .refl s

theorem addPart_keeps (p : Part) : Keeps s (s.addPart p) :=
  .noted s _ rfl rfl rfl

/-- Reading a token of a statement keeps the invariant. -/
theorem readToken_keeps : Keeps s (s.readToken env t) := by
  have hspaced : Keeps s { s with analysis :=
      { s.analysis with spaced := false } } :=
    .noted s _ rfl rfl rfl
  have hrestart : ∀ (u : State) (restart : Bool),
      Keeps u { u with analysis := { u.analysis with restart } } :=
    fun u restart => .noted u _ rfl rfl rfl
  unfold State.readToken
  dsimp only
  refine Keeps.trans ?_ (addPart_keeps _ _)
  split
  · refine hspaced.trans ?_
    exact (beginAtWord_keeps _ t).trans
      ((hrestart _ _).trans (lookAtWord_keeps env _ t _))
  · exact hspaced

end Words

variable (env : Environment) (s : State) (statement : Statement)

-- ============================================================ composing

theorem reading_keeps {α : Type} (read : Except AnalysisFault α)
    (work : α → Outcome) (h : ∀ a, read = .ok a → Keeps s (work a).state) :
    Keeps s (s.reading read work).state := by
  unfold State.reading
  cases read with
  | ok a => exact h a rfl
  | error fault => exact .refl s

/-- Work that goes on after a change of one item, if there is one to
change. -/
theorem changing_keeps {f : Item → Item} (hf : Rewrites f)
    (item : Option ItemId) (next : State → Outcome)
    (h : ∀ u, (u = s ∨ ∃ id, item = some id ∧ s.changeItem? id f = some u) →
      Keeps u (next u).state) :
    Keeps s (s.changing item f next).state := by
  unfold State.changing
  cases item with
  | none => exact h s (Or.inl rfl)
  | some id =>
      dsimp only
      cases hc : s.changeItem? id f with
      | none => exact .refl s
      | some u =>
          exact (Keeps.changed hf hc).trans (h u (Or.inr ⟨id, rfl, hc⟩))

/-- Items that are there before a change of one of them are there after
it, of the same sort. -/
theorem isA_of_changing {f : Item → Item} (hf : Rewrites f)
    {item : Option ItemId} {u : State}
    (hu : u = s ∨ ∃ id, item = some id ∧ s.changeItem? id f = some u) :
    Extends s.findings.items u.findings.items := by
  rcases hu with rfl | ⟨id, -, hc⟩
  · exact Extends.refl _
  · unfold State.changeItem? at hc
    split at hc
    · cases hc
      exact Extends.rewrite hf
    · cases hc

-- ============================================================= routines

theorem openRoutine_keeps (item : ItemId) (kind : RoutineKind)
    (keyword : String) (opener : Token)
    (h : Sound s → IsA s.findings.items item (routineSort kind)) :
    Keeps s (s.openRoutine item kind keyword opener) := by
  have hk : (Scope.routine item kind keyword opener).kind ≠ .file
      ∧ (Scope.routine item kind keyword opener).kind ≠ .conditional := by
    cases kind <;> exact ⟨nofun, nofun⟩
  unfold State.openRoutine
  dsimp only
  split
  · intro hs
    exact ((Keeps.faulted s .nestedRoutine opener).trans
      (.opened _ (.routine item kind keyword opener) opener
        (fun _ => h hs) hk)) hs
  · exact .opened s _ _ h hk

theorem endProcedure_keeps : Keeps s (s.endProcedure statement).state := by
  refine reading_keeps s _ _ fun head _ hs => ?_
  have hadd : Keeps s (s.addItem head.name head.nameToken
      (.procedure head.procedure)) :=
    .found _ _ _ (by simp [Item.Content.reportName])
  exact (hadd.trans (openRoutine_keeps _ _ _ _ _ fun _ =>
    hs.isA_nextItem _ _ _)) hs

/-- A function name is given items of the sorts it wants. -/
theorem setFunction_keeps (name : String) (entry : FunctionEntry)
    (h : Sound s →
      (∀ id, entry.prototype = some id →
        IsA s.findings.items id "prototype")
      ∧ ∀ id, entry.implementation = some id →
        IsA s.findings.items id "implementation") :
    Keeps s (s.setFunction name entry) := by
  refine .one fun hs => .noted s _ ⟨hs.analysis.trigger, hs.analysis.label,
    ?_, ?_⟩
  · intro f id hf hp
    rcases List.mem_cons.1 hf with rfl | hf
    · exact (h hs).1 id hp
    · exact hs.analysis.prototype hf hp
  · intro f id hf hi
    rcases List.mem_cons.1 hf with rfl | hf
    · exact (h hs).2 id hi
    · exact hs.analysis.implementation hf hi

theorem rewrites_withPrototype (prototype : ItemId) :
    Rewrites (State.withPrototype prototype) := by
  intro i
  unfold State.withPrototype
  split
  · rename_i f hc
    exact ⟨_, i.endLine, rfl, by rw [hc]; rfl⟩
  · exact ⟨i.content, i.endLine, rfl, rfl⟩

theorem rewrites_withImplementation (implementation : ItemId) :
    Rewrites (State.withImplementation implementation) := by
  intro i
  unfold State.withImplementation
  split
  · rename_i f hc
    exact ⟨_, i.endLine, rfl, by rw [hc]; rfl⟩
  · exact ⟨i.content, i.endLine, rfl, rfl⟩

/-- The items that a known function name stands for are there. -/
theorem Sound.function {s : State} (hs : Sound s) (name : String) :
    (∀ id, ((s.function? name).getD {}).prototype = some id →
        IsA s.findings.items id "prototype")
      ∧ ∀ id, ((s.function? name).getD {}).implementation = some id →
        IsA s.findings.items id "implementation" := by
  cases hf : s.function? name with
  | none => exact ⟨nofun, nofun⟩
  | some entry =>
      have hmem := mem_of_lookup hf
      exact ⟨fun _ hp => hs.analysis.prototype hmem hp,
        fun _ hi => hs.analysis.implementation hmem hi⟩

theorem addPrototype_keeps (head : Statement.FunctionHead) :
    Keeps s (s.addPrototype head).state := by
  unfold State.addPrototype
  dsimp only
  intro hs
  refine (Keeps.trans (.found s _ _ (by simp [Item.Content.reportName]))
    (changing_keeps _ (rewrites_withPrototype _) _ _ ?_)) hs
  intro u hu
  have hext := (hs.extends_addItem _ _ _).trans
    (isA_of_changing _ (rewrites_withPrototype _) hu)
  refine setFunction_keeps u _ _ fun _ => ⟨?_, ?_⟩
  · intro id h
    cases h
    exact isA_of_changing _ (rewrites_withPrototype _) hu
      (hs.isA_nextItem _ _ _)
  · exact fun id h => hext ((hs.function head.name).2 id h)

theorem addImplementation_keeps (head : Statement.FunctionHead) :
    Keeps s (s.addImplementation head).state := by
  unfold State.addImplementation
  dsimp only
  intro hs
  refine (Keeps.trans (.found s _ _ (by simp [Item.Content.reportName]))
    (changing_keeps _ (rewrites_withImplementation _) _ _ ?_)) hs
  intro u hu
  have hext := (hs.extends_addItem _ _ _).trans
    (isA_of_changing _ (rewrites_withImplementation _) hu)
  have hnew := isA_of_changing _ (rewrites_withImplementation _) hu
    (hs.isA_nextItem _ _ _)
  refine Keeps.trans (setFunction_keeps u _ _ fun _ => ⟨?_, ?_⟩)
    (openRoutine_keeps _ _ _ _ _ fun _ => hnew)
  · exact fun id h => hext ((hs.function head.name).1 id h)
  · intro id h
    cases h
    exact hnew

theorem endFunction_keeps (colon : Bool) :
    Keeps s (s.endFunction statement colon).state := by
  refine reading_keeps s _ _ fun head _ => ?_
  split
  · exact addImplementation_keeps s head
  · exact addPrototype_keeps s head

theorem endMethod_keeps (colon : Bool) :
    Keeps s (s.endMethod statement colon).state := by
  refine reading_keeps s _ _ fun head _ hs => ?_
  have hadd : Keeps s (s.addItem head.name head.nameToken
      (.method head.method)) :=
    .found _ _ _ (by simp [Item.Content.reportName])
  dsimp only
  split
  · exact (hadd.trans (openRoutine_keeps _ _ _ _ _ fun _ =>
      hs.isA_nextItem _ _ _)) hs
  · exact hadd hs

-- ============================================================== actions

theorem endOn_keeps : Keeps s (s.endOn statement).state := by
  unfold State.endOn
  split
  · exact reading_keeps s _ _ fun first _ => addTrigger_keeps s first statement
  · exact .refl s

theorem endRun_keeps : Keeps s (s.endRun statement).state :=
  reading_keeps s _ _ fun _ _ =>
    .found _ _ _ (by simp [Item.Content.reportName])

-- ========================================================== definitions

theorem setLocalTable_keeps (name : String) (temporary : Bool) :
    Keeps s (s.setLocalTable name temporary) :=
  .noted s _ rfl rfl rfl

theorem addBuffer_keeps (nameToken : Token) (name table : String)
    (temporary : Bool) :
    Keeps s (s.addBuffer nameToken name table temporary) :=
  (setLocalTable_keeps s _ _).trans
    (.found _ _ _ (by simp [Item.Content.reportName]))

theorem addDefinition_keeps (nameToken : Token) (name : String)
    (d : Item.Definition) : Keeps s (s.addDefinition nameToken name d) := by
  unfold State.addDefinition
  dsimp only
  refine Keeps.trans ?_ (.found _ _ _ (by simp [Item.Content.reportName]))
  split
  · exact setLocalTable_keeps s _ _
  · exact .refl s

theorem openAccessor_keeps (colon : Bool) :
    Keeps s (s.openAccessor statement colon) := by
  unfold State.openAccessor
  split
  · exact .opened s _ _ (fun _ l h => nomatch h) ⟨nofun, nofun⟩
  · exact .refl s

theorem endDefine_keeps (colon : Bool) :
    Keeps s (s.endDefine statement colon).state := by
  refine reading_keeps s _ _ fun defined _ => ?_
  cases defined with
  | nothing => exact .refl s
  | buffer nameToken name table temporary =>
      exact addBuffer_keeps s nameToken name table temporary
  | event nameToken name =>
      exact Keeps.trans (.found s _ _ (by simp [Item.Content.reportName]))
        (openAccessor_keeps _ statement colon)
  | definition nameToken name d =>
      exact (addDefinition_keeps s nameToken name d).trans
        (openAccessor_keeps _ statement colon)

theorem endVar_keeps : Keeps s (s.endVar statement).state := by
  refine reading_keeps s _ _ fun v _ => ?_
  show Keeps s (v.names.foldl _ s)
  generalize v.names = names
  induction names generalizing s with
  | nil => exact .refl s
  | cons t names ih =>
      exact Keeps.trans (.found s _ _ (by simp [Item.Content.reportName]))
        (ih _)

-- =============================================================== blocks

theorem endLabel_keeps : Keeps s (s.endLabel env statement).1 := by
  unfold State.endLabel
  split
  · split
    · rename_i p _ _
      have hadd : Keeps s (s.addItem p.token.text p.token (.label none)) :=
        .found _ _ _ (by simp [Item.Content.reportName])
      intro hs
      refine hadd.trans ?_ hs
      refine .one fun hu => .noted _ _
        ⟨hu.analysis.trigger, ?_, hu.analysis.prototype,
          hu.analysis.implementation⟩
      intro id h
      cases h
      exact hs.isA_nextItem _ _ _
    · exact .refl s
  · exact .refl s

theorem rewrites_withBlock : Rewrites State.withBlock := by
  intro i
  unfold State.withBlock
  split
  · rename_i t hc
    exact ⟨_, i.endLine, rfl, by rw [hc]; rfl⟩
  · exact ⟨i.content, i.endLine, rfl, rfl⟩

theorem rewrites_withKeyword (keyword : String) :
    Rewrites (State.withKeyword keyword) := by
  intro i
  unfold State.withKeyword
  split
  · rename_i block hc
    exact ⟨_, i.endLine, rfl, by rw [hc]; rfl⟩
  · exact ⟨i.content, i.endLine, rfl, rfl⟩

/-- The head of a block, whose trigger, where it is the action of one, is
there. -/
theorem endBlockHead_keeps
    (ht : Sound s → ∀ id, statement.trigger = some id →
      IsA s.findings.items id "on") :
    Keeps s (s.endBlockHead statement).state := by
  refine reading_keeps s _ _ fun opener _ => ?_
  dsimp only
  split
  · rename_i trigger htr
    have htrigger : statement.trigger = some trigger := by
      split at htr
      · exact htr
      · cases htr
    intro hs
    refine changing_keeps s rewrites_withBlock _ _ ?_ hs
    intro u hu
    refine .opened u _ _ (fun _ => ?_) ⟨nofun, nofun⟩
    exact isA_of_changing s rewrites_withBlock hu (ht hs trigger htrigger)
  · intro hs
    have hnote : Keeps s { s with analysis :=
        { s.analysis with pendingLabel := none } } :=
      .one fun hs => .noted s _ ⟨hs.analysis.trigger, nofun,
        hs.analysis.prototype, hs.analysis.implementation⟩
    refine (hnote.trans (changing_keeps _ (rewrites_withKeyword _) _ _ ?_)) hs
    intro u hu
    refine .opened u _ _ (fun _ l hl => ?_) ⟨nofun, nofun⟩
    exact isA_of_changing _ (rewrites_withKeyword _) hu
      (hs.analysis.label hl)

/-- What `END` closes, with the scopes within and around it. -/
theorem endBlock?_eq_some {n n' : Nesting} {scope : Scope}
    (h : n.endBlock? = some (scope, n')) :
    ∃ within line around, n.scopes = within ++ ⟨scope, line⟩ :: around
      ∧ n' = ⟨within ++ around⟩ ∧ scope.isBlockLike = true := by
  unfold Nesting.endBlock? at h
  split at h
  · rename_i within found around hi
    obtain ⟨heq, -⟩ := Nesting.splitScopes_eq_some hi
    split at h
    · rename_i hb
      cases h
      exact ⟨within, found.line, around, heq, rfl, hb⟩
    · cases h
  · cases h

theorem kind_of_isBlockLike {scope : Scope} (h : scope.isBlockLike = true) :
    scope.kind ≠ .file ∧ scope.kind ≠ .conditional := by
  cases scope with
  | routine item kind keyword opener => cases kind <;> exact ⟨nofun, nofun⟩
  | block opener keyword label => exact ⟨nofun, nofun⟩
  | file item => cases h
  | conditional opener active taken => cases h
  | suspended item opener => cases h

theorem endBlock_keeps : Keeps s (s.endBlock statement).state := by
  refine reading_keeps s _ _ fun stop _ => ?_
  dsimp only
  split
  · exact .faulted s _ _
  · rename_i scope nesting he
    obtain ⟨within, line, around, hs, rfl, hb⟩ := endBlock?_eq_some he
    have hclose : Keeps s { s with nesting := ⟨within ++ around⟩ } :=
      .one fun _ => .closed s within around _ hs (kind_of_isBlockLike hb)
    refine Keeps.trans ?_ (changing_keeps _ (rewrites_endLine _) _ _
      fun u _ => .refl u)
    split
    · exact hclose.trans (.one fun _ => .faulted _ _ _ _ _)
    · exact hclose

-- =========================================================== statements

/-- The end of a statement of any kind. -/
theorem endByKind_keeps (colon : Bool)
    (ht : Sound s → ∀ id, statement.trigger = some id →
      IsA s.findings.items id "on") :
    Keeps s (s.endByKind env statement colon).1.state := by
  unfold State.endByKind
  cases statement.kind with
  | procedure => exact endProcedure_keeps s statement
  | function => exact endFunction_keeps s statement colon
  | method => exact endMethod_keeps s statement colon
  | constructor => exact endMethod_keeps s statement colon
  | destructor => exact endMethod_keeps s statement colon
  | on => exact endOn_keeps s statement
  | run => exact endRun_keeps s statement
  | define => exact endDefine_keeps s statement colon
  | var => exact endVar_keeps s statement
  | close => exact endBlock_keeps s statement
  | block => exact endBlockHead_keeps s statement ht
  | accessor =>
      dsimp only
      split
      · exact endBlockHead_keeps s statement ht
      · exact .refl s
  | other =>
      dsimp only
      split
      · exact endLabel_keeps env s statement
      · exact .refl s

/-- What is found may be put under a trigger that is there. -/
theorem under_keeps (trigger : Option ItemId)
    (h : Sound s → ∀ id, trigger = some id →
      IsA s.findings.items id "on") : Keeps s (s.under trigger) :=
  .one fun hs => .noted s _ ⟨fun {id} ht => h hs id ht, hs.analysis.label,
    hs.analysis.prototype, hs.analysis.implementation⟩

/-- The end of a statement keeps the invariant. -/
theorem endStatement_keeps (stop : Token)
    (ht : Sound s → ∀ id, statement.trigger = some id →
      IsA s.findings.items id "on") :
    Keeps s (s.endStatement env statement stop).state := by
  unfold State.endStatement
  dsimp only
  intro hs
  have hunder := under_keeps s statement.trigger ht
  have hend := endByKind_keeps env (s.under statement.trigger) statement
    (stop.text == ":") fun _ => ht hs
  have hext := (hunder.trans hend).extends hs
  refine (hunder.trans (hend.trans (Keeps.trans
    (under_keeps _ s.analysis.statement.trigger fun _ id h =>
      hext (hs.analysis.trigger h)) ?_))) hs
  -- a label waits or is forgotten
  refine .one fun hu => .noted _ _ ⟨hu.analysis.trigger, ?_,
    hu.analysis.prototype, hu.analysis.implementation⟩
  intro id h
  dsimp only at h
  split at h
  · exact hu.analysis.label h
  · cases h

end AblOutline.Parse
