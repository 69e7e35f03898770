/-
Two parses that say the same. `Alike` states have found the same items and
the same faults on the same lines, have the same scopes open but for `&IF`s,
and read the same statement. They may differ in the bytes of their tokens, in
their `&IF`s, in what they have still to read, and in whether a gap was passed
since the last token. What is done to both of two alike states leaves them
alike.
-/
import AblOutline.Nesting.Closing
import AblOutline.Parse.Run
import AblOutline.Proofs.Alike.Bare

namespace AblOutline

-- ================================================================= bare

/-- The item, its token made bare. -/
def Item.bare (i : Item) : Item := { i with token := i.token.bare }

/-- The scope, its opener made bare. -/
def Scope.bare : Scope → Scope
  | file item => file item
  | routine item kind keyword opener => routine item kind keyword opener.bare
  | conditional opener active taken => conditional opener.bare active taken
  | suspended item opener => suspended item opener.bare
  | block opener keyword label => block opener.bare keyword label

def OpenScope.bare (o : OpenScope) : OpenScope := { o with scope := o.scope.bare }

/-- The open scopes but for `&IF`s, the innermost first. -/
def Nesting.blocks (n : Nesting) : List OpenScope :=
  (n.scopes.filter (!·.scope.isConditional)).map OpenScope.bare

/-- The fault and its line. -/
def StructureError.place (e : StructureError) : StructureFault × Nat :=
  (e.fault, e.rootLine)

/-- What is remembered, the statement made bare, whether or not a gap was
passed. -/
def Parse.Analysis.bare (a : Parse.Analysis) : Parse.Analysis :=
  { a with statement := a.statement.bare, spaced := false }

-- =============================================================== nesting

namespace Nesting

variable {n n' : Nesting} {o : OpenScope} {rest : List OpenScope}

theorem blocks_cons_block (h : o.scope.isConditional = false) :
    blocks ⟨o :: rest⟩ = o.bare :: blocks ⟨rest⟩ := by
  unfold blocks
  rw [List.filter_cons, h]
  rfl

theorem blocks_cons_if (h : o.scope.isConditional = true) :
    blocks ⟨o :: rest⟩ = blocks ⟨rest⟩ := by
  unfold blocks
  rw [List.filter_cons, h]
  rfl

theorem blocks_push {scope : Scope} {line : Nat}
    (h : scope.isConditional = false) :
    (n.push scope line).blocks = ⟨scope.bare, line⟩ :: n.blocks :=
  blocks_cons_block h

/-- A scope of no item is as good as none. -/
theorem currentItem?_blocks :
    n.currentItem? = n.blocks.findSome? (·.scope.item?) := by
  obtain ⟨scopes⟩ := n
  unfold currentItem?
  induction scopes with
  | nil => rfl
  | cons o rest ih =>
      dsimp only at ih ⊢
      rw [List.findSome?_cons, ih]
      cases hc : o.scope.isConditional with
      | true =>
          rw [blocks_cons_if hc]
          obtain ⟨scope, line⟩ := o
          cases scope <;> first | rfl | cases hc
      | false =>
          rw [blocks_cons_block hc, List.findSome?_cons]
          obtain ⟨scope, line⟩ := o
          cases scope <;> rfl

theorem openRoutines_blocks :
    n.openRoutines = n.blocks.countP (·.scope.isRoutine) := by
  obtain ⟨scopes⟩ := n
  unfold openRoutines
  induction scopes with
  | nil => rfl
  | cons o rest ih =>
      dsimp only at ih ⊢
      rw [List.countP_cons, ih]
      cases hc : o.scope.isConditional with
      | true =>
          rw [blocks_cons_if hc]
          obtain ⟨scope, line⟩ := o
          cases scope <;> first | rfl | cases hc
      | false =>
          rw [blocks_cons_block hc, List.countP_cons]
          obtain ⟨scope, line⟩ := o
          cases scope <;> rfl

/-- The innermost scope that is no `&IF`, parted from the others. -/
theorem innermost?_blocks (h : n.blocks = o :: rest) :
    ∃ within found around,
      n.innermost? (!·.isConditional) = some (within, found, around)
        ∧ found.bare = o ∧ blocks ⟨within ++ around⟩ = rest := by
  obtain ⟨scopes⟩ := n
  unfold innermost?
  induction scopes with
  | nil => cases h
  | cons x scopes ih =>
      unfold splitScopes
      cases hx : x.scope.isConditional with
      | false =>
          rw [blocks_cons_block hx, List.cons.injEq] at h
          exact ⟨[], x, scopes, rfl, h⟩
      | true =>
          rw [blocks_cons_if hx] at h
          obtain ⟨within, found, around, hsplit, hfound, hrest⟩ := ih h
          refine ⟨x :: within, found, around, ?_, hfound, ?_⟩
          · dsimp only at hsplit ⊢
            rw [hsplit]
            rfl
          · rw [List.cons_append, blocks_cons_if hx, hrest]

theorem innermost?_blocks_nil (h : n.blocks = []) :
    n.innermost? (!·.isConditional) = none := by
  obtain ⟨scopes⟩ := n
  unfold innermost?
  induction scopes with
  | nil => rfl
  | cons x scopes ih =>
      unfold splitScopes
      cases hx : x.scope.isConditional with
      | false =>
          rw [blocks_cons_block hx] at h
          cases h
      | true =>
          rw [blocks_cons_if hx] at h
          dsimp only at ih ⊢
          rw [ih h]
          rfl

/-- What `END` closes depends on the scopes that are no `&IF`s alone. -/
theorem endBlock?_blocks (h : n.blocks = n'.blocks) :
    n.endBlock? = none ∧ n'.endBlock? = none
      ∨ ∃ scope scope' m m', n.endBlock? = some (scope, m)
        ∧ n'.endBlock? = some (scope', m')
        ∧ scope.bare = scope'.bare ∧ m.blocks = m'.blocks := by
  cases hb : n.blocks with
  | nil =>
      left
      unfold endBlock?
      rw [innermost?_blocks_nil hb, innermost?_blocks_nil (h ▸ hb)]
      exact ⟨rfl, rfl⟩
  | cons o rest =>
      obtain ⟨within, found, around, hn, hfound, hrest⟩ := innermost?_blocks hb
      obtain ⟨within', found', around', hn', hfound', hrest'⟩ :=
        innermost?_blocks (h ▸ hb)
      have hbare : found.scope.bare = found'.scope.bare :=
        congrArg OpenScope.scope (hfound.trans hfound'.symm)
      have hlike : found.scope.isBlockLike = found'.scope.isBlockLike := by
        revert hbare
        cases found.scope <;> cases found'.scope <;> intro hbare <;>
          first | rfl | cases hbare
      unfold endBlock?
      rw [hn, hn']
      dsimp only
      rw [hlike]
      cases found'.scope.isBlockLike with
      | false => exact Or.inl ⟨rfl, rfl⟩
      | true =>
          exact Or.inr ⟨_, _, _, _, rfl, rfl, hbare, hrest.trans hrest'.symm⟩

end Nesting

namespace Parse

-- ================================================================ alike

/-- The two states say the same of what was read. -/
structure Alike (s s' : State) : Prop where
  chain : s.source.chain = s'.source.chain
  blocks : s.nesting.blocks = s'.nesting.blocks
  items : s.findings.items.map Item.bare = s'.findings.items.map Item.bare
  errors : s.findings.errors.map (·.place) = s'.findings.errors.map (·.place)
  analysis : s.analysis.bare = s'.analysis.bare

namespace Alike

variable {s s' : State} {t t' : Token}

theorem refl (s : State) : Alike s s := ⟨rfl, rfl, rfl, rfl, rfl⟩

theorem symm (h : Alike s s') : Alike s' s :=
  ⟨h.chain.symm, h.blocks.symm, h.items.symm, h.errors.symm, h.analysis.symm⟩

theorem trans {s'' : State} (h : Alike s s') (h' : Alike s' s'') : Alike s s'' :=
  ⟨h.chain.trans h'.chain, h.blocks.trans h'.blocks, h.items.trans h'.items,
    h.errors.trans h'.errors, h.analysis.trans h'.analysis⟩

theorem statement (h : Alike s s') :
    s.analysis.statement.bare = s'.analysis.statement.bare :=
  congrArg Analysis.statement h.analysis

theorem restart (h : Alike s s') : s.analysis.restart = s'.analysis.restart := by
  show s.analysis.bare.restart = s'.analysis.bare.restart
  rw [h.analysis]

theorem pendingLabel (h : Alike s s') :
    s.analysis.pendingLabel = s'.analysis.pendingLabel := by
  show s.analysis.bare.pendingLabel = s'.analysis.bare.pendingLabel
  rw [h.analysis]

theorem kind (h : Alike s s') :
    s.analysis.statement.kind = s'.analysis.statement.kind := by
  show s.analysis.statement.bare.kind = s'.analysis.statement.bare.kind
  rw [h.statement]

theorem trigger (h : Alike s s') :
    s.analysis.statement.trigger = s'.analysis.statement.trigger := by
  show s.analysis.statement.bare.trigger = s'.analysis.statement.bare.trigger
  rw [h.statement]

theorem nextItem (h : Alike s s') : s.nextItem = s'.nextItem := by
  have hsize := congrArg Array.size h.items
  rw [Array.size_map, Array.size_map] at hsize
  exact hsize

theorem scopeItem? (h : Alike s s') : s.scopeItem? = s'.scopeItem? := by
  unfold State.scopeItem?
  rw [h.trigger, Nesting.currentItem?_blocks, h.blocks,
    ← Nesting.currentItem?_blocks]

theorem function? (h : Alike s s') (name : String) :
    s.function? name = s'.function? name := by
  show s.analysis.bare.functions.lookup _ = s'.analysis.bare.functions.lookup _
  rw [h.analysis]

theorem localTable? (h : Alike s s') (name : String) :
    s.localTable? name = s'.localTable? name := by
  show s.analysis.bare.localTables.lookup _
    = s'.analysis.bare.localTables.lookup _
  rw [h.analysis]

theorem rootLine (h : Alike s s') (ht : t.bare = t'.bare) :
    s.rootLine t = s'.rootLine t' := by
  unfold State.rootLine IncludeChain.rootLine
  rw [h.chain]
  show (if t.bare.owner = 0 then t.bare.start.line else
      ((s'.source.chain.get? t.bare.owner).map (·.rootLine)).getD
        t.bare.start.line) = _
  rw [ht]
  rfl

-- ============================================================== changes

/-- The same is remembered. -/
theorem noted (h : Alike s s') {a a' : Analysis} (ha : a.bare = a'.bare) :
    Alike { s with analysis := a } { s' with analysis := a' } :=
  ⟨h.chain, h.blocks, h.items, h.errors, ha⟩

/-- The same is done to what is remembered. -/
theorem noting (h : Alike s s') (f : Analysis → Analysis)
    (hf : ∀ a : Analysis, (f a).bare = f a.bare) :
    Alike { s with analysis := f s.analysis }
      { s' with analysis := f s'.analysis } :=
  h.noted (by rw [hf, hf, h.analysis])

/-- What is read in both does not count. -/
theorem aside (h : Alike s s') {source source' : Source}
    (hs : source.chain = s.source.chain)
    (hs' : source'.chain = s'.source.chain) :
    Alike { s with source } { s' with source := source' } :=
  ⟨(hs.trans h.chain).trans hs'.symm, h.blocks, h.items, h.errors, h.analysis⟩

/-- What is read does not count. -/
theorem read (h : Alike s s') {source : Source}
    (hs : source.chain = s'.source.chain) :
    Alike s { s' with source } :=
  ⟨h.chain.trans hs.symm, h.blocks, h.items, h.errors, h.analysis⟩

/-- Nor do `&IF`s. -/
theorem branched (h : Alike s s') {n : Nesting}
    (hn : n.blocks = s'.nesting.blocks) : Alike s { s' with nesting := n } :=
  ⟨h.chain, h.blocks.trans hn.symm, h.items, h.errors, h.analysis⟩

theorem recordLine (h : Alike s s') (line : Nat) :
    Alike s (s'.recordLine line) :=
  ⟨h.chain, h.blocks, h.items, h.errors, h.analysis⟩

theorem space (h : Alike s s') : Alike s s'.space :=
  ⟨h.chain, h.blocks, h.items, h.errors, h.analysis⟩

/-- A change of an item that is none of its token. -/
theorem modify {items items' : Array Item}
    (h : items.map Item.bare = items'.map Item.bare) (id : ItemId)
    {f : Item → Item} (hf : ∀ i : Item, (f i).bare = f i.bare) :
    (items.modify id f).map Item.bare = (items'.modify id f).map Item.bare := by
  have hmap : ∀ xs : Array Item,
      (xs.modify id f).map Item.bare = (xs.map Item.bare).modify id f := by
    intro xs
    refine Array.ext_getElem? fun k => ?_
    rw [Array.getElem?_map, Array.getElem?_modify, Array.getElem?_modify,
      Array.getElem?_map]
    split
    · rw [Option.map_map, Option.map_map]
      exact congrArg (xs[k]?.map ·) (funext hf)
    · rfl
  rw [hmap, hmap, h]

theorem addItemIn (h : Alike s s') (scope : Option ItemId) (name : String)
    (ht : t.bare = t'.bare) (content : Item.Content) :
    Alike (s.addItemIn scope name t content)
      (s'.addItemIn scope name t' content) := by
  refine ⟨h.chain, h.blocks, ?_, h.errors, h.analysis⟩
  have hpush : (s.findings.items.push
        { id := s.findings.items.size, name, token := t
          rootLine := s.rootLine t, scope, content }).map Item.bare
      = (s'.findings.items.push
        { id := s'.findings.items.size, name, token := t'
          rootLine := s'.rootLine t', scope, content }).map Item.bare := by
    have hsize : s.findings.items.size = s'.findings.items.size := h.nextItem
    rw [Array.map_push, Array.map_push, h.items, h.rootLine ht, hsize]
    unfold Item.bare
    dsimp only
    rw [ht]
  unfold State.addItemIn
  have hid : s.findings.items.size = s'.findings.items.size := h.nextItem
  cases scope with
  | none => exact hpush
  | some parent =>
      dsimp only [Option.elim]
      rw [hid] at hpush ⊢
      exact modify hpush parent fun _ => rfl

theorem addItem (h : Alike s s') (name : String) (ht : t.bare = t'.bare)
    (content : Item.Content) :
    Alike (s.addItem name t content) (s'.addItem name t' content) := by
  unfold State.addItem
  rw [h.scopeItem?]
  exact h.addItemIn _ name ht content

theorem openScope (h : Alike s s') {scope scope' : Scope}
    (hscope : scope.bare = scope'.bare) (hc : scope.isConditional = false)
    (ht : t.bare = t'.bare) :
    Alike (s.openScope scope t) (s'.openScope scope' t') := by
  refine ⟨h.chain, ?_, h.items, h.errors, h.analysis⟩
  have hc' : scope'.isConditional = false := by
    revert hc hscope
    cases scope <;> cases scope' <;> intro hscope hc <;>
      first | rfl | cases hscope | cases hc
  unfold State.openScope
  dsimp only
  rw [Nesting.blocks_push hc, Nesting.blocks_push hc', h.blocks, hscope,
    h.rootLine ht]

theorem addErrorAt (h : Alike s s') (fault : StructureFault) (t t' : Token)
    (line depth depth' : Nat) :
    Alike (s.addErrorAt fault t line depth)
      (s'.addErrorAt fault t' line depth') := by
  refine ⟨h.chain, h.blocks, h.items, ?_, h.analysis⟩
  unfold State.addErrorAt
  dsimp only
  rw [List.map_append, List.map_append, h.errors]
  rfl

theorem addError (h : Alike s s') (fault : StructureFault)
    (ht : t.bare = t'.bare) :
    Alike (s.addError fault t) (s'.addError fault t') := by
  unfold State.addError
  rw [h.rootLine ht]
  exact h.addErrorAt ..

/-- An item that is there in one state is there in the other. -/
theorem changeItem? (h : Alike s s') (id : ItemId) {f : Item → Item}
    (hf : ∀ i : Item, (f i).bare = f i.bare) :
    s.changeItem? id f = none ∧ s'.changeItem? id f = none
      ∨ ∃ u u', s.changeItem? id f = some u ∧ s'.changeItem? id f = some u'
        ∧ Alike u u' := by
  unfold State.changeItem?
  rw [show s.findings.items.size = s'.findings.items.size from h.nextItem]
  by_cases hid : id < s'.findings.items.size
  · rw [if_pos hid, if_pos hid]
    exact Or.inr ⟨_, _, rfl, rfl,
      ⟨h.chain, h.blocks, modify h.items id hf, h.errors, h.analysis⟩⟩
  · rw [if_neg hid, if_neg hid]
    exact Or.inl ⟨rfl, rfl⟩

end Alike

end Parse

end AblOutline
