/-
What a parse may do to its state. Whatever a token says, the state changes in
the ways of `Change` only: the source is read on, an item is added under the
scope that is open, an item gets an end line or other content of its sort, a
fault or a line is recorded, a scope is opened or closed, or a note is taken
of the statement and the names in it. Branches of `&IF` are the one thing left
out: they are opened, turned and closed by their directives alone.

`Sound` is the invariant of a parse. The items are one tree; the scopes, the
statement being read and the names learned refer to items that are there and
of the sort they want; the file is open around all other scopes. Every change
keeps it (`Sound.change`), so what the parts of a parse have to show is only
that they are made of changes (`Keeps`).
-/
import AblOutline.Proofs.Forest
import AblOutline.Nesting.Closing

namespace AblOutline.Parse

-- ============================================================ references

/-- The sort of item that a routine scope of that kind belongs to. -/
def routineSort : RoutineKind → String
  | .procedure => "procedure"
  | .function => "implementation"
  | .method => "method"
  | .trigger => "on"

/-- The item that a scope refers to is there, of the sort that the scope
wants. -/
def ScopeFits (items : Array Item) : Scope → Prop
  | .file item => item = 0
  | .routine item kind _ _ => IsA items item (routineSort kind)
  | .conditional _ _ _ => True
  | .suspended item _ => IsA items item "preproc-block"
  | .block _ _ label => ∀ l, label = some l → IsA items l "label"

/-- The items that the statement being read and the names learned refer to
are there. -/
structure AnalysisFits (items : Array Item) (a : Analysis) : Prop where
  trigger : ∀ {id}, a.statement.trigger = some id → IsA items id "on"
  label : ∀ {id}, a.pendingLabel = some id → IsA items id "label"
  prototype : ∀ {f id}, f ∈ a.functions → f.2.prototype = some id →
    IsA items id "prototype"
  implementation : ∀ {f id}, f ∈ a.functions →
    f.2.implementation = some id → IsA items id "implementation"

theorem ScopeFits.extend {items items' : Array Item}
    (he : Extends items items') {scope : Scope}
    (h : ScopeFits items scope) : ScopeFits items' scope := by
  cases scope with
  | file item => exact h
  | routine item kind keyword opener => exact he h
  | conditional opener active taken => trivial
  | suspended item opener => exact he h
  | block opener keyword label => exact fun l hl => he (h l hl)

theorem AnalysisFits.extend {items items' : Array Item}
    (he : Extends items items') {a : Analysis} (h : AnalysisFits items a) :
    AnalysisFits items' a where
  trigger ht := he (h.trigger ht)
  label hl := he (h.label hl)
  prototype hf hp := he (h.prototype hf hp)
  implementation hf hi := he (h.implementation hf hi)

/-- Notes that refer to the same items fit as well. -/
theorem AnalysisFits.congr {items : Array Item} {a b : Analysis}
    (h : AnalysisFits items a) (ht : b.statement.trigger = a.statement.trigger)
    (hl : b.pendingLabel = a.pendingLabel) (hf : b.functions = a.functions) :
    AnalysisFits items b where
  trigger h' := h.trigger (ht ▸ h')
  label h' := h.label (hl ▸ h')
  prototype h' := h.prototype (hf ▸ h')
  implementation h' := h.implementation (hf ▸ h')

-- ============================================================= the file

/-- The file is open, and open around all other scopes. -/
def FileOpen (scopes : List OpenScope) : Prop :=
  ∃ inner line, scopes = inner ++ [⟨.file 0, line⟩]
    ∧ ∀ o ∈ inner, o.scope.kind ≠ .file

section FileOpen

variable {within around : List OpenScope} {o : OpenScope}

/-- The file stays open when a scope is opened. -/
theorem FileOpen.cons (h : FileOpen around) (ho : o.scope.kind ≠ .file) :
    FileOpen (o :: around) := by
  obtain ⟨inner, line, rfl, hi⟩ := h
  refine ⟨o :: inner, line, rfl, fun x hx => ?_⟩
  rcases List.mem_cons.1 hx with rfl | hx
  · exact ho
  · exact hi x hx

/-- A scope other than the file has the file around it, and no file within
it. -/
theorem FileOpen.parts (h : FileOpen (within ++ o :: around))
    (ho : o.scope.kind ≠ .file) :
    FileOpen around ∧ ∀ x ∈ within, x.scope.kind ≠ .file := by
  obtain ⟨inner, line, he, hi⟩ := h
  rcases List.eq_nil_or_concat around with rfl | ⟨front, last, rfl⟩
  · have hlast := (List.append_inj' he rfl).2
    rw [List.cons.injEq] at hlast
    exact absurd (congrArg (·.scope.kind) hlast.1) ho
  · rw [List.concat_eq_append] at he ⊢
    rw [← List.cons_append, ← List.append_assoc] at he
    obtain ⟨rfl, hlast⟩ := List.append_inj' he rfl
    refine ⟨⟨front, line, by rw [hlast], fun x hx => ?_⟩, fun x hx => ?_⟩
    · exact hi x (List.mem_append_right _ (List.mem_cons_of_mem _ hx))
    · exact hi x (List.mem_append_left _ hx)

theorem FileOpen.append (h : FileOpen around)
    (hw : ∀ x ∈ within, x.scope.kind ≠ .file) :
    FileOpen (within ++ around) := by
  induction within with
  | nil => exact h
  | cons x within ih =>
      have hrest := ih fun y hy => hw y (List.mem_cons_of_mem _ hy)
      exact hrest.cons (hw x List.mem_cons_self)

/-- The file stays open when another scope is closed. -/
theorem FileOpen.remove (h : FileOpen (within ++ o :: around))
    (ho : o.scope.kind ≠ .file) : FileOpen (within ++ around) :=
  (h.parts ho).1.append (h.parts ho).2

end FileOpen

-- ============================================================= invariant

/-- The invariant of a parse. -/
structure Sound (s : State) : Prop where
  forest : Forest s.findings.items
  scopes : ∀ o ∈ s.nesting.scopes, ScopeFits s.findings.items o.scope
  file : FileOpen s.nesting.scopes
  analysis : AnalysisFits s.findings.items s.analysis

/-- One change of the state, of a kind that leaves the branches of `&IF`
alone. -/
inductive Change : State → State → Prop where
  /-- The source is read on. -/
  | read (s : State) (source : Source) : Change s { s with source }
  /-- An item is found. -/
  | found (s : State) (name : String) (t : Token) (content : Item.Content)
      (h : content.reportName ≠ "file") : Change s (s.addItem name t content)
  /-- More is known of an item. -/
  | rewrote (s : State) (id : ItemId) (f : Item → Item) (h : Rewrites f) :
      Change s { s with findings :=
        { s.findings with items := s.findings.items.modify id f } }
  | faulted (s : State) (fault : StructureFault) (t : Token)
      (line depth : Nat) : Change s (s.addErrorAt fault t line depth)
  | lineEnded (s : State) (line : Nat) : Change s (s.recordLine line)
  | opened (s : State) (scope : Scope) (line : Nat)
      (h : ScopeFits s.findings.items scope)
      (hk : scope.kind ≠ .file ∧ scope.kind ≠ .conditional) :
      Change s { s with nesting := s.nesting.push scope line }
  | closed (s : State) (within around : List OpenScope) (found : OpenScope)
      (h : s.nesting.scopes = within ++ found :: around)
      (hk : found.scope.kind ≠ .file ∧ found.scope.kind ≠ .conditional) :
      Change s { s with nesting := ⟨within ++ around⟩ }
  | noted (s : State) (a : Analysis)
      (h : AnalysisFits s.findings.items a) :
      Change s { s with analysis := a }

/-- Any number of changes. -/
abbrev Changes : State → State → Prop := Relation.ReflTransGen Change

-- ========================================================= the open item

/-- The item of a scope owns what is found in it. -/
theorem ScopeFits.owner {items : Array Item} (hf : Forest items)
    {scope : Scope} {id : ItemId} (h : ScopeFits items scope)
    (hi : scope.item? = some id) :
    ∃ owner, items[id]? = some owner ∧ owner.isScope = true := by
  cases scope with
  | file item =>
      cases hi
      have h0 : id = 0 := h
      rw [h0]
      exact hf.isA_file.owner (by decide)
  | routine item kind keyword opener =>
      cases hi
      exact IsA.owner h (by cases kind <;> decide)
  | suspended item opener =>
      cases hi
      exact IsA.owner h (by decide)
  | conditional opener active taken => cases hi
  | block opener keyword label => cases hi

/-- What is found in a sound state is found under an owner. -/
theorem Sound.scopeItem {s : State} (h : Sound s) :
    ∃ id, s.scopeItem? = some id
      ∧ ∃ owner, s.findings.items[id]? = some owner
        ∧ owner.isScope = true := by
  unfold State.scopeItem?
  cases ht : s.analysis.statement.trigger with
  | some id =>
      exact ⟨id, rfl, (h.analysis.trigger ht).owner (by decide)⟩
  | none =>
      cases hc : s.nesting.currentItem? with
      | some id =>
          obtain ⟨o, ho, hi⟩ := List.exists_of_findSome?_eq_some hc
          exact ⟨id, rfl, (h.scopes o ho).owner h.forest hi⟩
      | none =>
          -- the file is open, so some scope has an item
          obtain ⟨inner, line, hs, -⟩ := h.file
          have hnone := List.findSome?_eq_none_iff.1 hc ⟨.file 0, line⟩
            (by rw [hs]; exact List.mem_append_right _ (List.mem_singleton_self _))
          cases hnone

-- =========================================================== keeping it

/-- An item found in a sound state is added under its owner. -/
theorem Sound.items_addItem {s : State} (h : Sound s) (name : String)
    (t : Token) (content : Item.Content) :
    ∃ parent, s.scopeItem? = some parent
      ∧ (s.addItem name t content).findings.items
        = addUnder s.findings.items
            { id := s.nextItem, name, token := t, rootLine := s.rootLine t
              scope := some parent, content } parent := by
  obtain ⟨parent, hp, -⟩ := h.scopeItem
  refine ⟨parent, hp, ?_⟩
  unfold State.addItem State.addItemIn
  rw [hp]
  rfl

/-- What is found extends the items. -/
theorem Sound.extends_addItem {s : State} (h : Sound s) (name : String)
    (t : Token) (content : Item.Content) :
    Extends s.findings.items (s.addItem name t content).findings.items := by
  obtain ⟨parent, -, he⟩ := h.items_addItem name t content
  rw [he]
  exact Extends.add

/-- The item found gets the next number. -/
theorem Sound.isA_nextItem {s : State} (h : Sound s) (name : String)
    (t : Token) (content : Item.Content) :
    IsA (s.addItem name t content).findings.items s.nextItem
      content.reportName := by
  obtain ⟨parent, hp, he⟩ := h.items_addItem name t content
  obtain ⟨parent', hp', owner, ho, -⟩ := h.scopeItem
  obtain rfl := Option.some.inj (hp.symm.trans hp')
  obtain ⟨hlt, -⟩ := Array.getElem?_eq_some_iff.1 ho
  rw [he]
  exact ⟨_, getElem?_addUnder_size hlt, rfl⟩

/-- Other items that extend the old ones and are a tree again. -/
theorem Sound.with_items {s : State} (h : Sound s) {findings : Findings}
    (hf : Forest findings.items)
    (he : Extends s.findings.items findings.items) :
    Sound { s with findings } where
  forest := hf
  scopes o ho := (h.scopes o ho).extend he
  file := h.file
  analysis := h.analysis.extend he

/-- Every change keeps the invariant. -/
theorem Sound.change {s s' : State} (h : Sound s) (hc : Change s s') :
    Sound s' := by
  cases hc with
  | read source => exact ⟨h.forest, h.scopes, h.file, h.analysis⟩
  | found name t content hn =>
      refine h.with_items ?_ (h.extends_addItem name t content)
      obtain ⟨parent, hp, he⟩ := h.items_addItem name t content
      obtain ⟨parent', hp', hown⟩ := h.scopeItem
      obtain rfl := Option.some.inj (hp.symm.trans hp')
      show Forest (s.addItem name t content).findings.items
      rw [he]
      exact h.forest.add rfl rfl rfl hn hown
  | rewrote id f hf =>
      exact h.with_items (h.forest.rewrite hf) (Extends.rewrite hf)
  | faulted fault t line depth =>
      exact ⟨h.forest, h.scopes, h.file, h.analysis⟩
  | lineEnded line => exact ⟨h.forest, h.scopes, h.file, h.analysis⟩
  | opened scope line hs hk =>
      refine ⟨h.forest, ?_, h.file.cons hk.1, h.analysis⟩
      intro o ho
      rcases List.mem_cons.1 ho with rfl | ho
      · exact hs
      · exact h.scopes o ho
  | closed within around found he hk =>
      refine ⟨h.forest, ?_, (he ▸ h.file).remove hk.1, h.analysis⟩
      intro o ho
      refine h.scopes o ?_
      rw [he]
      rcases List.mem_append.1 ho with ho | ho
      · exact List.mem_append_left _ ho
      · exact List.mem_append_right _ (List.mem_cons_of_mem _ ho)
  | noted a ha => exact ⟨h.forest, h.scopes, h.file, ha⟩

theorem Sound.changes {s s' : State} (h : Sound s) (hc : Changes s s') :
    Sound s' := by
  induction hc with
  | refl => exact h
  | tail _ hc ih => exact ih.change hc

-- ============================================================== composing

/-- From a sound state, `s'` comes about by changes alone. -/
def Keeps (s s' : State) : Prop := Sound s → Changes s s'

namespace Keeps

variable {s s' s'' : State}

theorem refl (s : State) : Keeps s s := fun _ => .refl

theorem trans (h : Keeps s s') (h' : Keeps s' s'') : Keeps s s'' :=
  fun hs => (h hs).trans (h' (hs.changes (h hs)))

theorem one (h : Sound s → Change s s') : Keeps s s' :=
  fun hs => .single (h hs)

theorem sound (h : Keeps s s') (hs : Sound s) : Sound s' :=
  hs.changes (h hs)

theorem read (s : State) (source : Source) : Keeps s { s with source } :=
  one fun _ => .read s source

theorem found (s : State) (name : String) (t : Token)
    {content : Item.Content} (h : content.reportName ≠ "file") :
    Keeps s (s.addItem name t content) :=
  one fun _ => .found s name t content h

/-- A note that refers to no other items than the last one did. -/
theorem noted (s : State) (a : Analysis)
    (ht : a.statement.trigger = s.analysis.statement.trigger)
    (hl : a.pendingLabel = s.analysis.pendingLabel)
    (hf : a.functions = s.analysis.functions) :
    Keeps s { s with analysis := a } :=
  one fun hs => .noted s a (hs.analysis.congr ht hl hf)

theorem faulted (s : State) (fault : StructureFault) (t : Token) :
    Keeps s (s.addError fault t) :=
  one fun _ => .faulted s fault t (s.rootLine t) s.nesting.depth

theorem opened (s : State) (scope : Scope) (opener : Token)
    (h : Sound s → ScopeFits s.findings.items scope)
    (hk : scope.kind ≠ .file ∧ scope.kind ≠ .conditional) :
    Keeps s (s.openScope scope opener) :=
  one fun hs => .opened s scope (s.rootLine opener) (h hs) hk

/-- A change of one item, where there is such an item. -/
theorem changed {id : ItemId} {f : Item → Item} (hf : Rewrites f)
    (h : s.changeItem? id f = some s') : Keeps s s' := by
  unfold State.changeItem? at h
  split at h
  · cases h
    exact one fun _ => .rewrote s id f hf
  · cases h

end Keeps

/-- Changes lose no items. -/
theorem Keeps.extends {s s' : State} (h : Keeps s s') (hs : Sound s) :
    Extends s.findings.items s'.findings.items := by
  have key : ∀ {u}, Changes s u → Sound u
      ∧ Extends s.findings.items u.findings.items := by
    intro u hc
    induction hc with
    | refl => exact ⟨hs, Extends.refl _⟩
    | tail _ hc ih =>
        refine ⟨ih.1.change hc, ih.2.trans ?_⟩
        cases hc with
        | found name t content hn => exact ih.1.extends_addItem _ _ _
        | rewrote id f hf => exact Extends.rewrite hf
        | read source => exact Extends.refl _
        | faulted fault t line depth => exact Extends.refl _
        | lineEnded line => exact Extends.refl _
        | opened scope line hs hk => exact Extends.refl _
        | closed within around found he hk => exact Extends.refl _
        | noted a ha => exact Extends.refl _
  exact (key (h hs)).2

/-- An end line is no change of place or sort. -/
theorem rewrites_endLine (line : Nat) :
    Rewrites fun i => { i with endLine := some line } :=
  fun i => ⟨i.content, some line, rfl, rfl⟩

end AblOutline.Parse
