/-
What items tell of the tokens and files of a parse. An item stands at its token,
and the item of an include directive tells which file the directive brought in;
that, and what a definition defines, is the mark of the item. Marks never change
once an item is found.

Whatever is read of the tokens of some sort finds items at such tokens, and
brings in no file (`Notes`): the tokens of a statement come from the stream, and
the items that it declares or uses are found at its tokens.
-/
import AblOutline.Proofs.Resting

namespace AblOutline

-- =================================================================== marks

/-- The number of the file that an include directive brought in. -/
def Item.Content.opened? : Item.Content → Option Nat
  | .inclusion _ owner => owner
  | _ => none

/-- What a definition defines. -/
def Item.Content.defined? : Item.Content → Option DefineType
  | .definition d => some d.type
  | _ => none

/-- Content that brings in no file. A buffer has content of its own. -/
def Item.Content.IsPlain : Item.Content → Prop
  | .inclusion _ owner => owner = none
  | .definition d => d.type ≠ .buffer
  | _ => True

theorem Item.Content.IsPlain.mark {content : Item.Content}
    (h : content.IsPlain) :
    content.opened? = none ∧ content.defined? ≠ some .buffer := by
  cases content with
  | inclusion path owner => exact ⟨h, nofun⟩
  | definition d => exact ⟨rfl, fun he => h (Option.some.inj he)⟩
  | _ => exact ⟨rfl, nofun⟩

/-- What an item tells and never takes back. -/
structure Mark where
  /-- The token that the item stands at. -/
  token : Token
  /-- The number of the file that it brought in. -/
  opened : Option Nat
  /-- What it defines. -/
  defined : Option DefineType
deriving DecidableEq, Repr

def Item.mark (i : Item) : Mark :=
  ⟨i.token, i.content.opened?, i.content.defined?⟩

/-- The tokens of the statement are of the sort `p`. -/
def Statement.IsFrom (p : Token → Prop) (st : Statement) : Prop :=
  ∀ part ∈ st.parts, p part.token

namespace Parse

/-- The marks of all items, in their order. -/
def State.marks (s : State) : List Mark :=
  s.findings.items.toList.map Item.mark

theorem mark_withChild (id : ItemId) (i : Item) :
    (State.withChild id i).mark = i.mark := rfl

theorem mark_withPrototype (id : ItemId) (i : Item) :
    (State.withPrototype id i).mark = i.mark := by
  unfold State.withPrototype Item.mark
  cases h : i.content <;> simp [Item.Content.opened?, Item.Content.defined?, h]

theorem mark_withImplementation (id : ItemId) (i : Item) :
    (State.withImplementation id i).mark = i.mark := by
  unfold State.withImplementation Item.mark
  cases h : i.content <;> simp [Item.Content.opened?, Item.Content.defined?, h]

theorem mark_withBlock (i : Item) : (State.withBlock i).mark = i.mark := by
  unfold State.withBlock Item.mark
  cases h : i.content <;> simp [Item.Content.opened?, Item.Content.defined?, h]

theorem mark_withKeyword (keyword : String) (i : Item) :
    (State.withKeyword keyword i).mark = i.mark := by
  unfold State.withKeyword Item.mark
  cases h : i.content <;> simp [Item.Content.opened?, Item.Content.defined?, h]

/-- What is told of an item that is found comes after what is told of the
others. -/
theorem map_addItem {β : Type} {g : Item → β}
    (hg : ∀ id i, g (State.withChild id i) = g i) (s : State) (name : String)
    (t : Token) (content : Item.Content) :
    (s.addItem name t content).findings.items.toList.map g
      = s.findings.items.toList.map g ++ [g {
          id := s.nextItem, name, token := t, rootLine := s.rootLine t
          scope := s.scopeItem?, content }] := by
  unfold State.addItem State.addItemIn
  dsimp only
  cases s.scopeItem? with
  | none =>
      dsimp only [Option.elim_none]
      rw [Array.toList_push, List.map_append]
      rfl
  | some parent =>
      dsimp only [Option.elim_some]
      rw [map_modify (hg _), Array.toList_push, List.map_append]
      rfl

theorem marks_addItem (s : State) (name : String) (t : Token)
    (content : Item.Content) :
    (s.addItem name t content).marks
      = s.marks ++ [⟨t, content.opened?, content.defined?⟩] :=
  map_addItem mark_withChild s name t content

-- =================================================================== notes

/-- Items are found at tokens of the sort `p`, and no file is brought in. -/
structure Notes (p : Token → Prop) (s s' : State) : Prop where
  chain : s'.source.chain = s.source.chain
  marks : ∃ new, s'.marks = s.marks ++ new
    ∧ ∀ m ∈ new, p m.token ∧ m.opened = none ∧ m.defined ≠ some .buffer
  statement : s.analysis.statement.IsFrom p →
    s'.analysis.statement.IsFrom p

namespace Notes

variable {p : Token → Prop} {s s' s'' : State} {st : Statement}

/-- No item is found. -/
theorem aside (hchain : s'.source.chain = s.source.chain)
    (hmarks : s'.marks = s.marks)
    (hparts : s'.analysis.statement.parts = s.analysis.statement.parts) :
    Notes p s s' := by
  refine ⟨hchain, ⟨[], hmarks.trans (List.append_nil _).symm, nofun⟩, ?_⟩
  unfold Statement.IsFrom
  rw [hparts]
  exact fun h => h

theorem refl (s : State) : Notes p s s := aside rfl rfl rfl

theorem trans (h : Notes p s s') (h' : Notes p s' s'') :
    Notes p s s'' := by
  obtain ⟨hchain, ⟨new, hnew, hall⟩, hstatement⟩ := h
  obtain ⟨hchain', ⟨new', hnew', hall'⟩, hstatement'⟩ := h'
  refine ⟨hchain'.trans hchain, ⟨new ++ new', ?_, fun m hm => ?_⟩,
    fun h => hstatement' (hstatement h)⟩
  · rw [hnew', hnew, List.append_assoc]
  · exact (List.mem_append.1 hm).elim (hall m) (hall' m)

variable (s)

/-- The statement that was read is dropped. -/
theorem emptied {a : Analysis} (ha : a.statement.parts = []) :
    Notes p s { s with analysis := a } := by
  refine ⟨rfl, ⟨[], (List.append_nil _).symm, nofun⟩, fun _ => ?_⟩
  unfold Statement.IsFrom
  rw [ha]
  nofun

theorem addItem (name : String) {t : Token} {content : Item.Content}
    (ht : p t) (hcontent : content.IsPlain) :
    Notes p s (s.addItem name t content) := by
  refine ⟨rfl, ⟨_, marks_addItem s name t content, fun m hm => ?_⟩, fun h => h⟩
  rw [List.mem_singleton.1 hm]
  exact ⟨ht, hcontent.mark⟩

theorem openScope (scope : Scope) (t : Token) :
    Notes p s (s.openScope scope t) := aside rfl rfl rfl

theorem addErrorAt (fault : StructureFault) (t : Token) (line depth : Nat) :
    Notes p s (s.addErrorAt fault t line depth) := aside rfl rfl rfl

theorem setFunction (name : String) (entry : FunctionEntry) :
    Notes p s (s.setFunction name entry) := aside rfl rfl rfl

variable {s}

theorem changed {id : ItemId} {f : Item → Item}
    (hf : ∀ i, (f i).mark = i.mark) (h : s.changeItem? id f = some s') :
    Notes p s s' := by
  unfold State.changeItem? at h
  split at h
  · cases h
    exact aside rfl (map_modify hf id) rfl
  · cases h

theorem ended {id : ItemId} {line : Nat}
    (h : s.setEndLine? id line = some s') : Notes p s s' :=
  changed (f := fun i => { i with endLine := some line }) (fun _ => rfl) h

theorem changing (h : Notes p s s') (item : Option ItemId)
    {f : Item → Item} (hf : ∀ i, (f i).mark = i.mark) {next : State → Outcome}
    (hnext : ∀ u, Notes p u (next u).state) :
    Notes p s (s'.changing item f next).state := by
  unfold State.changing
  cases item with
  | none => exact h.trans (hnext s')
  | some id =>
      dsimp only
      split
      · rename_i u hu
        exact h.trans ((changed hf hu).trans (hnext u))
      · exact h

end Notes

-- =================================================================== heads

/-- Nothing is read but tokens that have the property. -/
def Reads {α : Type} (p : α → Prop) (read : Except AnalysisFault α) : Prop :=
  ∀ a, read = .ok a → p a

section Heads

variable {p : Token → Prop} {st : Statement}

theorem token?_isFrom (h : st.IsFrom p) {index : Nat} {t : Token}
    (ht : st.token? index = some t) : p t := by
  obtain ⟨part, hpart, rfl⟩ := Option.map_eq_some_iff.1 ht
  exact h part (List.mem_of_getElem? hpart)

theorem Reads.bind {α β : Type} {p : α → Prop} {q : β → Prop}
    {read : Except AnalysisFault α} {next : α → Except AnalysisFault β}
    (h : Reads p read) (hnext : ∀ a, p a → Reads q (next a)) :
    Reads q (read >>= next) := by
  intro b hb
  cases read with
  | error fault => cases hb
  | ok a => exact hnext a (h a rfl) b hb

theorem Reads.ok {α : Type} {p : α → Prop} {a : α} (h : p a) :
    Reads p (.ok a) := by
  intro b hb
  cases hb
  exact h

theorem Reads.fault {α : Type} {p : α → Prop} (fault : AnalysisFault) :
    Reads p (.error fault : Except AnalysisFault α) := nofun

theorem Reads.unless {α : Type} {p : α → Prop} {a : α} (c : Prop)
    [Decidable c] (fault : AnalysisFault) (h : p a) :
    Reads p (if c then (do throw fault; pure a) else pure a) := by
  split
  · exact (Reads.fault fault).bind (p := p) fun _ _ => .ok h
  · exact .ok h

/-- The first token of a statement is one of its tokens. -/
theorem reads_opening (h : st.IsFrom p) :
    Reads p st.opening := by
  unfold Statement.opening
  split
  · rename_i t ht
    intro u hu
    cases hu
    exact token?_isFrom h ht
  · nofun

theorem reads_nameAt (h : st.IsFrom p) (index : Nat) :
    Reads (fun r => p r.1) (st.nameAt index) := by
  unfold Statement.nameAt
  split
  · rename_i t ht
    split
    · intro r hr
      cases hr
      exact token?_isFrom h ht
    · nofun
  · nofun

theorem reads_procedureHead (h : st.IsFrom p) :
    Reads (fun head => p head.opener ∧ p head.nameToken) st.procedureHead :=
  (reads_opening h).bind fun _ hopener =>
    (reads_nameAt h 1).bind fun _ hname => .ok ⟨hopener, hname⟩

theorem reads_functionHead (h : st.IsFrom p) :
    Reads (fun head => p head.opener ∧ p head.nameToken) st.functionHead :=
  (reads_opening h).bind fun _ hopener =>
    (reads_nameAt h 1).bind fun _ hname => .ok ⟨hopener, hname⟩

theorem reads_methodHead (h : st.IsFrom p) (colon : Bool) :
    Reads (fun head => p head.opener ∧ p head.nameToken)
      (st.methodHead colon) := by
  refine (reads_opening h).bind fun _ hopener => ?_
  cases st.methodNameIndex? with
  | none => exact .fault _
  | some index =>
      exact (reads_nameAt h index).bind fun _ hname => .ok ⟨hopener, hname⟩

theorem reads_runHead (h : st.IsFrom p) :
    Reads (fun head => p head.targetToken) st.runHead := by
  unfold Statement.runHead
  split
  · rename_i t ht
    dsimp only
    split
    · exact .unless _ _ (token?_isFrom h ht)
    · exact .unless _ _ (token?_isFrom h ht)
  · exact .fault _

/-- The token of the name that a `DEFINE` statement gives. -/
def Statement.Defined.nameToken? : Statement.Defined → Option Token
  | .nothing => none
  | .buffer t _ _ _ | .event t _ | .definition t _ _ => some t

/-- What a `DEFINE` statement defines as anything but a buffer. -/
def Statement.Defined.type? : Statement.Defined → Option DefineType
  | .definition _ _ d => some d.type
  | _ => none

/-- The name that a `DEFINE` statement gives stands in it, and a buffer is
defined as one. -/
structure NamedFrom (p : Token → Prop) (d : Statement.Defined) : Prop where
  token : ∀ t, Statement.Defined.nameToken? d = some t → p t
  type : Statement.Defined.type? d ≠ some .buffer

theorem reads_bufferAt (h : st.IsFrom p) (index : Nat) :
    Reads (NamedFrom p) (st.bufferAt index) :=
  (reads_nameAt h index).bind fun r hname => .ok {
    token := fun t (ht : some r.1 = some t) => Option.some.inj ht ▸ hname
    type := nofun }

theorem reads_namedAt (h : st.IsFrom p) {type : DefineType}
    (htype : type ≠ .buffer) (modifiers : List String) (index : Nat) :
    Reads (NamedFrom p) (st.namedAt type modifiers index) := by
  refine (reads_nameAt h index).bind fun r hname => ?_
  have hnamed : ∀ t, some r.1 = some t → p t :=
    fun t ht => Option.some.inj ht ▸ hname
  dsimp only
  split
  · exact .ok ⟨hnamed, nofun⟩
  · exact .ok ⟨hnamed, fun he => htype (Option.some.inj he)⟩

theorem reads_defined (h : st.IsFrom p) :
    Reads (NamedFrom p) st.defined := by
  unfold Statement.defined
  dsimp only
  split
  · split
    · exact reads_bufferAt h _
    · split
      · exact reads_bufferAt h _
      · have hparameter : DefineType.parameter ≠ .buffer := nofun
        exact reads_namedAt h hparameter _ _
    · rename_i hbuffer _
      exact reads_namedAt h hbuffer _ _
  · exact .ok ⟨nofun, nofun⟩

/-- The names of a list of variables stand in it. -/
theorem mem_variablesFrom {depth : Nat} {nameNext : Bool} {parts : List Part} :
    ∀ t ∈ Statement.variablesFrom depth nameNext parts,
      ∃ p ∈ parts, p.token = t := by
  intro t ht
  have further : ∀ {q : Part} {rest : List Part},
      (∃ p ∈ rest, p.token = t) → ∃ p ∈ q :: rest, p.token = t :=
    fun ⟨p, hp, heq⟩ => ⟨p, List.mem_cons_of_mem _ hp, heq⟩
  induction parts generalizing depth nameNext with
  | nil => cases ht
  | cons q rest ih =>
      unfold Statement.variablesFrom at ht
      dsimp only at ht
      split at ht
      · exact further (ih ht)
      split at ht
      · exact further (ih ht)
      split at ht
      · exact further (ih ht)
      split at ht
      · rcases List.mem_cons.1 ht with rfl | ht
        · exact ⟨q, List.mem_cons_self, rfl⟩
        · exact further (ih ht)
      · exact further (ih ht)

theorem beforeGroup?_subset {depth : Nat} {parts rest : List Part}
    (h : Statement.beforeGroup? depth parts = some rest) : rest ⊆ parts := by
  induction parts generalizing depth with
  | nil => cases h
  | cons q parts ih =>
      unfold Statement.beforeGroup? at h
      split at h
      · exact List.subset_cons_of_subset q (ih h)
      split at h
      · split at h
        · cases h
          exact List.subset_cons_self q _
        · exact List.subset_cons_of_subset q (ih h)
      · exact List.subset_cons_of_subset q (ih h)

/-- The accessor that ends a statement is one of its tokens. -/
theorem accessor?_isFrom (h : st.IsFrom p) {t : Token}
    (ht : st.accessor? = some t) : p t := by
  have hhead : ∀ {parts : List Part}, parts ⊆ st.parts.reverse →
      (parts.head?.bind fun part =>
        if ["GET", "SET", "TRIGGERS"].any part.token.isWord then
          some part.token else none) = some t → p t := by
    intro parts hparts ht
    obtain ⟨part, hpart, ht⟩ := Option.bind_eq_some_iff.1 ht
    split at ht
    · cases ht
      exact h part (List.mem_reverse.1 (hparts (List.mem_of_mem_head? hpart)))
    · cases ht
  obtain ⟨last, -, ht⟩ := Option.bind_eq_some_iff.1 ht
  dsimp only at ht
  split at ht
  · obtain ⟨parts, hparts, ht⟩ := Option.bind_eq_some_iff.1 ht
    exact hhead (beforeGroup?_subset hparts) ht
  · exact hhead (List.Subset.refl _) ht

theorem reads_varHead (h : st.IsFrom p) :
    Reads (fun v => (∀ t ∈ v.names, p t) ∧ v.definition.type = .variable)
      st.varHead := by
  have hnames : ∀ {parts : List Part}, parts ⊆ st.parts →
      ∀ t ∈ Statement.variablesFrom 0 true parts, p t := by
    intro parts hparts t ht
    obtain ⟨part, hpart, rfl⟩ := mem_variablesFrom t ht
    exact h part (hparts hpart)
  unfold Statement.varHead
  dsimp only
  split
  · split
    · exact .unless _ _ ⟨hnames (List.drop_subset _ _), rfl⟩
    · exact .unless _ _ ⟨hnames (List.drop_subset _ _), rfl⟩
  · exact .fault _

end Heads

-- ==================================================================== ends

namespace Notes

variable {p : Token → Prop} {s : State} {st : Statement}

theorem reading {α : Type} {q : α → Prop} {read : Except AnalysisFault α}
    (hread : Reads q read) {work : α → Outcome}
    (h : ∀ a, q a → Notes p s (work a).state) :
    Notes p s (s.reading read work).state := by
  unfold State.reading
  cases read with
  | error fault => exact refl s
  | ok a => exact h a (hread a rfl)

variable (s)

theorem openRoutine (item : ItemId) (kind : RoutineKind) (keyword : String)
    (t : Token) : Notes p s (s.openRoutine item kind keyword t) := by
  unfold State.openRoutine
  dsimp only
  split
  · exact (addErrorAt s _ t _ _).trans (openScope _ _ t)
  · exact openScope s _ t

theorem openAccessor (colon : Bool) :
    Notes p s (s.openAccessor st colon) := by
  unfold State.openAccessor
  split
  · exact openScope s _ _
  · exact refl s

variable (hst : st.IsFrom p)
include hst

theorem endProcedure : Notes p s (s.endProcedure st).state :=
  reading (reads_procedureHead hst) fun head ⟨_, hname⟩ =>
    (addItem s _ hname (by trivial)).trans (openRoutine _ _ _ _ head.opener)

theorem endFunction (colon : Bool) :
    Notes p s (s.endFunction st colon).state := by
  refine reading (reads_functionHead hst) fun head ⟨_, hname⟩ => ?_
  split
  · exact (addItem s _ hname (by trivial)).changing _ (mark_withImplementation _)
      fun u => (setFunction u _ _).trans (openRoutine _ _ _ _ head.opener)
  · exact (addItem s _ hname (by trivial)).changing _ (mark_withPrototype _)
      fun u => setFunction u _ _

theorem endMethod (colon : Bool) :
    Notes p s (s.endMethod st colon).state := by
  refine reading (reads_methodHead hst colon) fun head ⟨_, hname⟩ => ?_
  have hadd : Notes p s
      (s.addItem head.name head.nameToken (.method head.method)) :=
    addItem s _ hname (by trivial)
  dsimp only
  split
  · exact hadd.trans (openRoutine _ _ _ _ head.opener)
  · exact hadd

theorem endOn : Notes p s (s.endOn st).state := by
  unfold State.endOn
  split
  · exact reading (reads_opening hst) fun _ hfirst =>
      addItem s _ hfirst (by trivial)
  · exact refl s

theorem endRun : Notes p s (s.endRun st).state :=
  reading (reads_runHead hst) fun _ hhead => addItem s _ hhead (by trivial)

theorem endDefine (colon : Bool) :
    Notes p s (s.endDefine st colon).state := by
  refine reading (reads_defined hst) fun defined hdefined => ?_
  cases defined with
  | nothing => exact refl s
  | buffer token name table temporary =>
      have hset : ∀ temporary : Bool,
          Notes p s (s.setLocalTable name temporary) :=
        fun _ => aside rfl rfl rfl
      exact (hset _).trans
        (addItem _ name (hdefined.token token rfl) (by trivial))
  | event token name =>
      exact (addItem s name (hdefined.token token rfl) (by trivial)).trans
        (openAccessor _ colon)
  | definition token name d =>
      refine trans ?_ (openAccessor _ colon)
      unfold State.addDefinition
      refine trans ?_ (addItem _ name (hdefined.token token rfl)
        (mt (congrArg some) hdefined.type))
      split
      · exact aside rfl rfl rfl
      · exact refl s

omit hst in
theorem addItems {content : Item.Content} (hcontent : content.IsPlain)
    {ts : List Token} (hts : ∀ t ∈ ts, p t) :
    Notes p s (ts.foldl (fun s t => s.addItem t.text t content) s) := by
  induction ts generalizing s with
  | nil => exact refl s
  | cons t ts ih =>
      obtain ⟨ht, hrest⟩ := List.forall_mem_cons.1 hts
      exact (addItem s t.text ht hcontent).trans (ih _ hrest)

theorem endVar : Notes p s (s.endVar st).state :=
  reading (reads_varHead hst) fun v ⟨hnames, htype⟩ => by
    have hplain : (Item.Content.definition v.definition).IsPlain :=
      fun he => by cases htype.symm.trans he
    exact addItems s hplain hnames

theorem endLabel (env : Environment) :
    Notes p s (s.endLabel env st).1 := by
  unfold State.endLabel
  split
  · rename_i part hparts
    split
    · have ht : p part.token := hst part (hparts ▸ List.mem_cons_self)
      exact (addItem s _ ht (by trivial)).trans (aside rfl rfl rfl)
    · exact refl s
  · exact refl s

theorem endBlockHead : Notes p s (s.endBlockHead st).state := by
  refine reading (reads_opening hst) fun opener _ => ?_
  dsimp only
  split
  · exact (refl s).changing _ mark_withBlock fun u => openScope u _ opener
  · refine changing ?_ _ (mark_withKeyword _) fun u => openScope u _ opener
    exact aside rfl rfl rfl

theorem endBlock : Notes p s (s.endBlock st).state := by
  refine reading (reads_opening hst) fun stop _ => ?_
  split
  · exact addErrorAt s _ stop _ _
  · rename_i scope nesting _
    dsimp only
    have hclosed : Notes p s { s with nesting } := aside rfl rfl rfl
    split
    · refine changing (hclosed.trans (addErrorAt _ _ stop _ _)) _
        (fun i => ?_) fun u => ?_
      · rfl
      · exact refl u
    · refine changing hclosed _ (fun i => ?_) fun u => ?_
      · rfl
      · exact refl u

theorem endByKind (env : Environment) (colon : Bool) :
    Notes p s (s.endByKind env st colon).1.state := by
  unfold State.endByKind
  cases st.kind with
  | procedure => exact endProcedure s hst
  | function => exact endFunction s hst colon
  | method => exact endMethod s hst colon
  | constructor => exact endMethod s hst colon
  | destructor => exact endMethod s hst colon
  | on => exact endOn s hst
  | run => exact endRun s hst
  | define => exact endDefine s hst colon
  | var => exact endVar s hst
  | close => exact endBlock s hst
  | block => exact endBlockHead s hst
  | accessor =>
      cases colon with
      | false => exact refl s
      | true => exact endBlockHead s hst
  | other =>
      cases colon with
      | false => exact refl s
      | true => exact endLabel s hst env

/-- The end of a statement. -/
theorem endStatement (env : Environment) (stop : Token) :
    Notes p s (s.endStatement env st stop).state := by
  have hunder : ∀ (u : State) trigger, Notes p u (u.under trigger) :=
    fun _ _ => aside rfl rfl rfl
  have hkind : Notes p s
      ((s.under st.trigger).endByKind env st (stop.text == ":")).1.state :=
    (hunder s _).trans (endByKind _ hst env _)
  unfold State.endStatement
  dsimp only
  exact (hkind.trans (hunder _ _)).trans (aside rfl rfl rfl)

end Notes

-- =================================================================== words

namespace Notes

variable {p : Token → Prop} (env : Environment) (s : State) {t : Token}
  (ht : p t)
include ht

theorem useTable (table : String) (temporary : Bool) :
    Notes p s (s.useTable t table temporary) := by
  unfold State.useTable
  dsimp only
  split
  · exact refl s
  · exact (addItem s table ht (by trivial)).trans (aside rfl rfl rfl)

theorem addUnknown : Notes p s (s.addUnknown t) := by
  unfold State.addUnknown
  dsimp only
  split
  · exact refl s
  · exact (addItem s t.text ht (by trivial)).trans (aside rfl rfl rfl)

theorem useNames : Notes p s (s.useNames env t) := by
  have table : ∀ use : Option (String × Bool),
      Notes p s (use.elim s fun use => s.useTable t use.1 use.2) := by
    intro use
    cases use with
    | none => exact refl s
    | some use => exact useTable s ht use.1 use.2
  rw [State.useNames_eq]
  dsimp only
  split
  · exact (table _).trans (addUnknown _ ht)
  · exact table _

theorem lookAtWord (spaced : Bool) :
    Notes p s (s.lookAtWord env t spaced) := by
  unfold State.lookAtWord
  split
  · exact addItem s t.text ht (by trivial)
  split
  · split
    · exact addItem s _ ht (by trivial)
    · exact refl s
  split
  · exact addItem s _ ht (by trivial)
  · exact useNames env s ht

omit ht in
theorem beginStatement (trigger : Option ItemId) :
    Notes p s (s.beginStatement t trigger) :=
  ⟨rfl, ⟨[], (List.append_nil _).symm, nofun⟩, fun _ => nofun⟩

omit ht in
theorem beginAtWord (hst : s.analysis.statement.IsFrom p) :
    Notes p s (s.beginAtWord t) := by
  unfold State.beginAtWord
  dsimp only
  split
  · exact beginStatement s none
  · rename_i first hfirst
    split
    · exact beginStatement s _
    split
    · exact (addItem s _ (token?_isFrom hst hfirst) (by trivial)).trans
        (beginStatement _ _)
    · exact refl s

/-- A token that is read becomes part of the statement. -/
theorem readToken (hst : s.analysis.statement.IsFrom p) :
    Notes p s (s.readToken env t) := by
  have hpart : ∀ (u : State) (spaced : Bool),
      Notes p u (u.addPart ⟨t, spaced⟩) := by
    refine fun u spaced => ⟨rfl, ⟨[], (List.append_nil _).symm, nofun⟩, ?_⟩
    intro hu part hpart
    rcases List.mem_append.1 hpart with hpart | hpart
    · exact hu part hpart
    · rw [List.mem_singleton.1 hpart]
      exact ht
  have hbegin : ∀ u : State, u.analysis.statement.IsFrom p →
      Notes p u (u.beginAtWord t) := fun u hu => beginAtWord u hu
  have hrestart : ∀ (u : State) (restart : Bool), Notes p u
      { u with analysis := { u.analysis with restart } } :=
    fun _ _ => aside rfl rfl rfl
  have hread : ∀ (u : State) (spaced : Bool),
      u.analysis.statement.IsFrom p → Notes p u
        ((if t.kind = .word then
          ({ u.beginAtWord t with analysis :=
            { (u.beginAtWord t).analysis with
              restart := Keyword.isIn t.text Keyword.restarts } } :
            State).lookAtWord env t spaced
        else u).addPart ⟨t, spaced⟩) := by
    intro u spaced hu
    refine trans ?_ (hpart _ _)
    split
    · exact ((hbegin u hu).trans (hrestart _ _)).trans (lookAtWord env _ ht _)
    · exact refl u
  have hspaced : Notes p s
      { s with analysis := { s.analysis with spaced := false } } :=
    aside rfl rfl rfl
  exact hspaced.trans (hread _ s.analysis.spaced hst)

end Notes

end Parse

end AblOutline
