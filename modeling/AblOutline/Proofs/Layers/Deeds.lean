/-
What the reading of statements may do to a parse. Whatever a statement says,
the state changes by deeds of a few kinds only: an item is found, a function is
called or declared, something is added to an item, a fault is recorded, a block
is opened or closed, a note is taken. So what a statement leaves alone, and
what holds of the functions of a file, is shown of each deed once. No deed
reads the source on, and none opens, turns or closes an `&IF`.
-/
import AblOutline.Parse.Run
import Mathlib.Logic.Relation

namespace AblOutline

-- ================================================================ branches

/-- Whether the branch of an `&IF` is taken, and whether one was. -/
def Scope.branch? : Scope → Option (Bool × Bool)
  | conditional _ active taken => some (active, taken)
  | _ => none

/-- The branches that are open, the innermost first. -/
def Nesting.branches (n : Nesting) : List (Bool × Bool) :=
  n.scopes.filterMap (·.scope.branch?)

namespace Nesting

variable {n : Nesting} {scope : Scope}

theorem branches_push (h : scope.branch? = none) (line : Nat) :
    (n.push scope line).branches = n.branches := by
  rw [branches, push, List.filterMap_cons, h]
  rfl

/-- A scope that is no branch is closed, wherever it stands. -/
theorem branches_remove {within around : List OpenScope} {found : OpenScope}
    (hn : n.scopes = within ++ found :: around)
    (h : found.scope.branch? = none) :
    branches ⟨within ++ around⟩ = n.branches := by
  rw [branches, branches, hn, List.filterMap_append, List.filterMap_append,
    List.filterMap_cons, h]

/-- `END` closes no branch. -/
theorem branches_endBlock? {n' : Nesting}
    (h : n.endBlock? = some (scope, n')) : n'.branches = n.branches := by
  unfold endBlock? at h
  split at h
  · rename_i within found around hsplit
    obtain ⟨hn, hfound⟩ := splitScopes_eq_some hsplit
    split at h
    · cases h
      refine branches_remove hn ?_
      cases hs : found.scope <;> simp_all [Scope.isConditional, Scope.branch?]
    · cases h
  · cases h

/-- Neither does `&ANALYZE-RESUME`. -/
theorem branches_endSection? {n' : Nesting}
    (h : n.endSection? = some (scope, n')) : n'.branches = n.branches := by
  obtain ⟨⟨within, found, around⟩, hsplit, he⟩ := Option.map_eq_some_iff.1 h
  obtain ⟨hn, hfound⟩ := splitScopes_eq_some hsplit
  cases he
  refine branches_remove hn ?_
  cases hs : found.scope <;> simp_all [Scope.isSuspended, Scope.branch?]

end Nesting

/-- What statements declare and use, but for functions. -/
def Item.Content.isPlain : Item.Content → Bool
  | file _ | editorSection _ _ | prototype _ | implementation _ | call _ _
  | name _ _ _ | nameUse _ | inclusion _ _ => false
  | _ => true

namespace Parse

-- =================================================================== deeds

/-- More is said of an item, and of a plain one other things of its sort. -/
def Amends (f : Item → Item) : Prop :=
  ∀ i, (f i).name = i.name ∧ (f i).token = i.token
    ∧ ((f i).content = i.content
      ∨ i.content.isPlain = true ∧ (f i).content.isPlain = true)

/-- One deed. -/
inductive Deed : State → State → Prop where
  | found (s : State) (name : String) (t : Token) (content : Item.Content)
      (h : content.isPlain = true) : Deed s (s.addItem name t content)
  | called (s : State) (name : String) (t : Token) (dynamic : Bool) :
      Deed s (s.addCall name t dynamic)
  | prototype (s : State) (head : Statement.FunctionHead) :
      Deed s (s.addPrototype head).state
  | implementation (s : State) (head : Statement.FunctionHead) :
      Deed s (s.addImplementation head).state
  | rewrote (s : State) (id : ItemId) (f : Item → Item) (h : Amends f) :
      Deed s { s with findings :=
        { s.findings with items := s.findings.items.modify id f } }
  | faulted (s : State) (fault : StructureFault) (t : Token)
      (line depth : Nat) : Deed s (s.addErrorAt fault t line depth)
  | nested (s : State) (nesting : Nesting)
      (h : nesting.branches = s.nesting.branches) : Deed s { s with nesting }
  | noted (s : State) (a : Analysis)
      (h : a.functions = s.analysis.functions) :
      Deed s { s with analysis := a }

/-- Any number of deeds. -/
abbrev Deeds : State → State → Prop := Relation.ReflTransGen Deed

theorem amends_endLine (line : Nat) :
    Amends fun i => { i with endLine := some line } :=
  fun _ => ⟨rfl, rfl, .inl rfl⟩

theorem amends_withBlock : Amends State.withBlock := by
  intro i
  unfold State.withBlock
  split
  · rename_i t h
    exact ⟨rfl, rfl, .inr ⟨by rw [h]; rfl, rfl⟩⟩
  · exact ⟨rfl, rfl, .inl rfl⟩

theorem amends_withKeyword (keyword : String) :
    Amends (State.withKeyword keyword) := by
  intro i
  unfold State.withKeyword
  split
  · rename_i block h
    exact ⟨rfl, rfl, .inr ⟨by rw [h]; rfl, rfl⟩⟩
  · exact ⟨rfl, rfl, .inl rfl⟩

namespace Deeds

variable {s s' : State} {st : Statement}

theorem changed {id : ItemId} {f : Item → Item} (hf : Amends f)
    (h : s.changeItem? id f = some s') : Deeds s s' := by
  unfold State.changeItem? at h
  split at h
  · cases h
    exact .single (.rewrote s id f hf)
  · cases h

theorem ended {id : ItemId} {line : Nat}
    (h : s.setEndLine? id line = some s') : Deeds s s' :=
  changed (amends_endLine line) h

theorem changing (h : Deeds s s') (item : Option ItemId) {f : Item → Item}
    (hf : Amends f) {next : State → Outcome}
    (hnext : ∀ u, Deeds u (next u).state) :
    Deeds s (s'.changing item f next).state := by
  unfold State.changing
  cases item with
  | none => exact h.trans (hnext s')
  | some id =>
      dsimp only
      split
      · rename_i u hu
        exact h.trans ((changed hf hu).trans (hnext u))
      · exact h

theorem reading {α : Type} (read : Except AnalysisFault α)
    {work : α → Outcome} (h : ∀ a, Deeds s (work a).state) :
    Deeds s (s.reading read work).state := by
  unfold State.reading
  cases read with
  | error fault => exact .refl
  | ok a => exact h a

variable (s)

theorem addItem (name : String) (t : Token) {content : Item.Content}
    (h : content.isPlain = true) : Deeds s (s.addItem name t content) :=
  .single (.found s name t content h)

theorem noted (a : Analysis) (h : a.functions = s.analysis.functions) :
    Deeds s { s with analysis := a } :=
  .single (.noted s a h)

theorem openScope {scope : Scope} (h : scope.branch? = none) (t : Token) :
    Deeds s (s.openScope scope t) :=
  .single (.nested s _ (Nesting.branches_push h _))

theorem addErrorAt (fault : StructureFault) (t : Token) (line depth : Nat) :
    Deeds s (s.addErrorAt fault t line depth) :=
  .single (.faulted s fault t line depth)

-- =================================================================== words

section Words

variable (env : Environment) (t : Token)

theorem useTable (table : String) (temporary : Bool) :
    Deeds s (s.useTable t table temporary) := by
  unfold State.useTable
  dsimp only
  split
  · exact .refl
  · exact (addItem s table t rfl).trans (noted _ _ rfl)

theorem addUnknown : Deeds s (s.addUnknown t) := by
  unfold State.addUnknown
  dsimp only
  split
  · exact .refl
  · exact (addItem s t.text t rfl).trans (noted _ _ rfl)

theorem useNames : Deeds s (s.useNames env t) := by
  have htable : ∀ use : Option (String × Bool),
      Deeds s (use.elim s fun use => s.useTable t use.1 use.2) := by
    intro use
    cases use with
    | none => exact .refl
    | some use => exact useTable s t use.1 use.2
  rw [State.useNames_eq]
  dsimp only
  split
  · exact (htable _).trans (addUnknown _ t)
  · exact htable _

theorem lookAtWord (spaced : Bool) : Deeds s (s.lookAtWord env t spaced) := by
  unfold State.lookAtWord
  split
  · exact addItem s t.text t rfl
  · split
    · split
      · exact .single (.called s _ t true)
      · exact .refl
    · split
      · exact .single (.called s _ t false)
      · exact useNames s env t

theorem beginAtWord : Deeds s (s.beginAtWord t) := by
  unfold State.beginAtWord
  dsimp only
  split
  · exact noted s _ rfl
  · split
    · exact noted s _ rfl
    · split
      · exact (addItem s _ _ rfl).trans (noted _ _ rfl)
      · exact .refl

/-- A token of a statement. -/
theorem readToken : Deeds s (s.readToken env t) := by
  unfold State.readToken
  dsimp only
  have hword : ∀ u : State,
      Deeds u { u with analysis := { u.analysis with
        restart := Keyword.isIn t.text Keyword.restarts } } :=
    fun u => noted u _ rfl
  have hspace : Deeds s { s with analysis :=
      { s.analysis with spaced := false } } := noted s _ rfl
  split
  · exact (((hspace.trans (beginAtWord _ t)).trans (hword _)).trans
      (lookAtWord _ env t _)).trans (noted _ _ rfl)
  · exact hspace.trans (noted _ _ rfl)

end Words

-- ============================================================== statements

theorem openRoutine (item : ItemId) (kind : RoutineKind) (keyword : String)
    (t : Token) : Deeds s (s.openRoutine item kind keyword t) := by
  unfold State.openRoutine
  dsimp only
  split
  · exact (addErrorAt s _ t _ _).trans (openScope _ rfl t)
  · exact openScope s rfl t

theorem openAccessor (colon : Bool) : Deeds s (s.openAccessor st colon) := by
  unfold State.openAccessor
  split
  · exact openScope s rfl _
  · exact .refl

theorem endProcedure : Deeds s (s.endProcedure st).state :=
  reading _ fun head =>
    (addItem s _ head.nameToken rfl).trans (openRoutine _ _ _ _ head.opener)

theorem endFunction (colon : Bool) :
    Deeds s (s.endFunction st colon).state := by
  refine reading _ fun head => ?_
  split
  · exact .single (.implementation s head)
  · exact .single (.prototype s head)

theorem endMethod (colon : Bool) : Deeds s (s.endMethod st colon).state := by
  refine reading _ fun head => ?_
  have hadd : Deeds s (s.addItem head.name head.nameToken
      (.method head.method)) := addItem s _ _ rfl
  dsimp only
  split
  · exact hadd.trans (openRoutine _ _ _ _ head.opener)
  · exact hadd

theorem endOn : Deeds s (s.endOn st).state := by
  unfold State.endOn
  split
  · exact reading _ fun first => addItem s _ first rfl
  · exact .refl

theorem endRun : Deeds s (s.endRun st).state :=
  reading _ fun _ => addItem s _ _ rfl

theorem endDefine (colon : Bool) : Deeds s (s.endDefine st colon).state := by
  refine reading _ fun defined => ?_
  cases defined with
  | nothing => exact .refl
  | buffer token name table temporary =>
      have hset : ∀ temporary : Bool,
          Deeds s (s.setLocalTable name temporary) :=
        fun _ => noted s _ rfl
      exact (hset _).trans (addItem _ name token rfl)
  | event token name =>
      exact (addItem s name token rfl).trans (openAccessor _ colon)
  | definition token name d =>
      refine Relation.ReflTransGen.trans ?_ (openAccessor _ colon)
      unfold State.addDefinition
      refine Relation.ReflTransGen.trans ?_ (addItem _ name token rfl)
      split
      · exact noted s _ rfl
      · exact .refl

theorem addItems {content : Item.Content} (h : content.isPlain = true)
    (ts : List Token) :
    Deeds s (ts.foldl (fun s t => s.addItem t.text t content) s) := by
  induction ts generalizing s with
  | nil => exact .refl
  | cons t ts ih => exact (addItem s t.text t h).trans (ih _)

theorem endVar : Deeds s (s.endVar st).state :=
  reading _ fun v => addItems s rfl v.names

theorem endLabel (env : Environment) : Deeds s (s.endLabel env st).1 := by
  unfold State.endLabel
  split
  · split
    · exact (addItem s _ _ rfl).trans (noted _ _ rfl)
    · exact .refl
  · exact .refl

theorem endBlockHead : Deeds s (s.endBlockHead st).state := by
  refine reading _ fun opener => ?_
  dsimp only
  split
  · refine changing .refl _ amends_withBlock fun u => ?_
    exact openScope u rfl opener
  · have hlabel : Deeds s { s with analysis :=
        { s.analysis with pendingLabel := none } } := noted s _ rfl
    refine changing hlabel _ (amends_withKeyword _) fun u => ?_
    exact openScope u rfl opener

theorem endBlock : Deeds s (s.endBlock st).state := by
  refine reading _ fun stop => ?_
  split
  · exact addErrorAt s _ stop _ _
  · rename_i scope nesting hend
    dsimp only
    have hclosed : Deeds s { s with nesting } :=
      .single (.nested s nesting (Nesting.branches_endBlock? hend))
    split
    · exact changing (hclosed.trans (addErrorAt _ _ stop _ _)) _
        (amends_endLine _) fun _ => .refl
    · exact changing hclosed _ (amends_endLine _) fun _ => .refl

theorem endByKind (env : Environment) (colon : Bool) :
    Deeds s (s.endByKind env st colon).1.state := by
  unfold State.endByKind
  cases st.kind with
  | procedure => exact endProcedure s
  | function => exact endFunction s colon
  | method => exact endMethod s colon
  | constructor => exact endMethod s colon
  | destructor => exact endMethod s colon
  | on => exact endOn s
  | run => exact endRun s
  | define => exact endDefine s colon
  | var => exact endVar s
  | close => exact endBlock s
  | block => exact endBlockHead s
  | accessor =>
      cases colon with
      | false => exact .refl
      | true => exact endBlockHead s
  | other =>
      cases colon with
      | false => exact .refl
      | true => exact endLabel s env

/-- The end of a statement. -/
theorem endStatement (env : Environment) (st : Statement) (stop : Token) :
    Deeds s (s.endStatement env st stop).state := by
  have hunder : ∀ (u : State) trigger, Deeds u (u.under trigger) :=
    fun u _ => noted u _ rfl
  have hkind : Deeds s
      ((s.under st.trigger).endByKind env st (stop.text == ":")).1.state :=
    (hunder s _).trans (endByKind _ env _)
  unfold State.endStatement
  dsimp only
  exact (hkind.trans (hunder _ _)).trans (noted _ _ rfl)

/-- The statement is taken where it stops. -/
theorem stopStatement : Deeds s s.stopStatement.2 := by
  have htake : Deeds s s.takeStatement.2 := noted s _ rfl
  unfold State.stopStatement
  dsimp only
  split <;> exact htake.trans (noted _ _ rfl)

/-- A look at a token that is no directive. -/
theorem look (env : Environment) (steps : Nat) {t : Token}
    (ended : Option Statement) (hk : t.kind ≠ .directive) :
    ∃ o, s.look env steps t ended = some o ∧ Deeds s o.state := by
  have hspace : Deeds s s.space := noted s _ rfl
  unfold State.look
  split
  · exact ⟨_, rfl, .refl⟩
  · split
    · rename_i hd
      exact absurd hd hk
    · split
      · exact ⟨_, rfl, .refl⟩
      · split
        · exact ⟨_, rfl, hspace⟩
        · exact ⟨_, rfl, hspace⟩
        · exact ⟨_, rfl, hspace⟩
        · cases ended with
          | none => exact ⟨_, rfl, hspace⟩
          | some st => exact ⟨_, rfl, hspace.trans (endStatement _ env st t)⟩
        · exact ⟨_, rfl, .refl⟩
        · exact ⟨_, rfl, .refl⟩
        · exact ⟨_, rfl, .refl⟩
        · exact ⟨_, rfl, readToken s env t⟩

-- ================================================================= the end

/-- The statement that is still being read at the end of the tokens. -/
theorem endLast (env : Environment) (eof : Token) :
    Deeds s (s.endLast env eof) := by
  have htake : Deeds s s.takeStatement.2 := noted s _ rfl
  unfold State.endLast
  dsimp only
  split
  · exact htake
  · exact htake.trans (endStatement _ env _ eof)

/-- The scopes that are left open. -/
theorem leaveAll (line : Nat) (scopes : List OpenScope) :
    Deeds s (s.leaveAll line scopes) := by
  induction scopes generalizing s with
  | nil => exact .refl
  | cons o around ih =>
      refine Relation.ReflTransGen.trans ?_ (ih _)
      unfold State.leave
      split
      · rename_i item _
        cases hend : s.setEndLine? item line with
        | none => exact .refl
        | some u => exact ended hend
      · split
        · exact addErrorAt s _ _ _ _
        · exact .refl

end Deeds

end Parse

end AblOutline
