/-
Two parses that preprocess alike. What a parse has preprocessed is its source,
the branches of `&IF` that are open, the items that directives and references
have found, and for each line whether it is on a branch not taken. Two parses
are in step when all this is the same. They stay in step by paces: both read
on, find or branch alike (`Pace`), while each does the deeds of its own
statements, which change nothing of it (`Deed.preprocessing`).
-/
import AblOutline.Proofs.Forest
import AblOutline.Proofs.Layers.Deeds

namespace AblOutline

-- ============================================================ what is told

/-- What directives and references find. -/
def Item.Content.isPreprocessed : Item.Content → Bool
  | editorSection _ _ | name _ _ _ | nameUse _ | inclusion _ _ => true
  | _ => false

/-- What an item tells of the preprocessing. -/
def Item.preprocessed? (i : Item) :
    Option (String × Token × Item.Content) :=
  if i.content.isPreprocessed then some (i.name, i.token, i.content) else none

/-- Some branch is not taken, as the branches tell. -/
theorem Nesting.inFalseBranch_branches (n : Nesting) :
    n.inFalseBranch = n.branches.any (!·.1) := by
  obtain ⟨scopes⟩ := n
  unfold inFalseBranch branches
  induction scopes with
  | nil => rfl
  | cons o scopes ih =>
      obtain ⟨scope, line⟩ := o
      rw [List.any_cons, ih]
      cases scope <;> rfl

namespace Parse

/-- What a parse has preprocessed. -/
structure Preprocessing where
  source : Source
  branches : List (Bool × Bool)
  items : List (String × Token × Item.Content)
  flags : Array (Option Bool)

/-- What the parse has preprocessed so far. -/
def State.preprocessing (s : State) : Preprocessing where
  source := s.source
  branches := s.nesting.branches
  items := s.findings.items.toList.filterMap Item.preprocessed?
  flags := s.findings.lines.map (Option.map (·.inFalseBranch))

-- =================================================================== deeds

section Deeds

variable {s u : State}

theorem preprocessed_addItem (s : State) (name : String) (t : Token)
    (content : Item.Content) :
    (s.addItem name t content).findings.items.toList.filterMap
        Item.preprocessed?
      = s.findings.items.toList.filterMap Item.preprocessed?
        ++ (if content.isPreprocessed then [(name, t, content)] else []) := by
  have hnew : ∀ i : Item, i.name = name → i.token = t → i.content = content →
      [i].filterMap Item.preprocessed?
        = if content.isPreprocessed then [(name, t, content)] else [] := by
    rintro i rfl rfl rfl
    unfold Item.preprocessed?
    by_cases h : i.content.isPreprocessed = true <;> simp [h]
  unfold State.addItem State.addItemIn
  dsimp only
  cases s.scopeItem? with
  | none =>
      rw [Option.elim_none, Array.toList_push, List.filterMap_append,
        hnew _ rfl rfl rfl]
  | some parent =>
      rw [Option.elim_some,
        filterMap_modify (f := State.withChild _) fun _ => rfl,
        Array.toList_push, List.filterMap_append, hnew _ rfl rfl rfl]

/-- An item of no directive or reference. -/
theorem preprocessing_addItem (name : String) (t : Token)
    {content : Item.Content} (h : content.isPreprocessed = false) :
    (s.addItem name t content).preprocessing = s.preprocessing := by
  unfold State.preprocessing
  rw [preprocessed_addItem, h, if_neg (by simp), List.append_nil]
  rfl

theorem preprocessing_modify {f : Item → Item}
    (hf : ∀ i, (f i).preprocessed? = i.preprocessed?) (id : ItemId) :
    State.preprocessing { s with findings :=
        { s.findings with items := s.findings.items.modify id f } }
      = s.preprocessing := by
  unfold State.preprocessing
  rw [filterMap_modify hf]

theorem preprocessing_changing {f : Item → Item}
    (hf : ∀ i, (f i).preprocessed? = i.preprocessed?) (item : Option ItemId)
    {next : State → Outcome}
    (hnext : ∀ u, (next u).state.preprocessing = u.preprocessing) :
    (s.changing item f next).state.preprocessing = s.preprocessing := by
  unfold State.changing State.changeItem?
  cases item with
  | none => exact hnext s
  | some id =>
      dsimp only
      by_cases h : id < s.findings.items.size
      · rw [if_pos h]
        exact (hnext _).trans (preprocessing_modify hf id)
      · rw [if_neg h]
        rfl

theorem preprocessed?_withPrototype (id : ItemId) (i : Item) :
    (State.withPrototype id i).preprocessed? = i.preprocessed? := by
  unfold State.withPrototype Item.preprocessed?
  cases h : i.content <;> simp [h, Item.Content.isPreprocessed]

theorem preprocessed?_withImplementation (id : ItemId) (i : Item) :
    (State.withImplementation id i).preprocessed? = i.preprocessed? := by
  unfold State.withImplementation Item.preprocessed?
  cases h : i.content <;> simp [h, Item.Content.isPreprocessed]

/-- Plain items are none of directives and references. -/
theorem Item.Content.isPreprocessed_of_isPlain {content : Item.Content}
    (h : content.isPlain = true) : content.isPreprocessed = false := by
  cases content <;> first | rfl | cases h

theorem Amends.preprocessed? {f : Item → Item} (h : Amends f) (i : Item) :
    (f i).preprocessed? = i.preprocessed? := by
  obtain ⟨hname, htoken, hcontent | ⟨hplain, hplain'⟩⟩ := h i
  · simp only [Item.preprocessed?, hname, htoken, hcontent]
  · simp [Item.preprocessed?,
      Item.Content.isPreprocessed_of_isPlain hplain,
      Item.Content.isPreprocessed_of_isPlain hplain']

theorem preprocessing_openRoutine (item : ItemId) (kind : RoutineKind)
    (keyword : String) (t : Token) :
    (s.openRoutine item kind keyword t).preprocessing = s.preprocessing := by
  unfold State.openRoutine
  dsimp only
  split <;> rfl

/-- No deed changes what was preprocessed. -/
theorem Deed.preprocessing (h : Deed s u) :
    u.preprocessing = s.preprocessing := by
  cases h with
  | found name t content h =>
      exact preprocessing_addItem name t
        (Item.Content.isPreprocessed_of_isPlain h)
  | called name t dynamic => exact preprocessing_addItem name t rfl
  | prototype head =>
      refine (preprocessing_changing (preprocessed?_withPrototype _) _
        fun u => ?_).trans (preprocessing_addItem head.name head.nameToken rfl)
      rfl
  | implementation head =>
      refine (preprocessing_changing (preprocessed?_withImplementation _) _
        fun u => ?_).trans (preprocessing_addItem head.name head.nameToken rfl)
      exact preprocessing_openRoutine _ _ _ _
  | rewrote id f h => exact preprocessing_modify h.preprocessed? id
  | faulted fault t line depth => rfl
  | nested nesting h => simp only [State.preprocessing, h]
  | noted a h => rfl

end Deeds

-- =================================================================== paces

/-- Two parses have preprocessed the same. -/
def InStep (s s' : State) : Prop := s.preprocessing = s'.preprocessing

/-- One pace of two parses: both do the same to what they preprocess, or one of
them does a deed. -/
inductive Pace : State × State → State × State → Prop where
  | read (s s' : State) (source : Source) :
      Pace (s, s') ({ s with source }, { s' with source })
  | found (s s' : State) (name : String) (t : Token) (content : Item.Content)
      (h : content.isPreprocessed = true) :
      Pace (s, s') (s.addItem name t content, s'.addItem name t content)
  | branched (s s' : State) (n n' : Nesting) (h : n.branches = n'.branches) :
      Pace (s, s') ({ s with nesting := n }, { s' with nesting := n' })
  | lineEnded (s s' : State) (line : Nat) :
      Pace (s, s') (s.recordLine line, s'.recordLine line)
  | left {s u : State} (h : Deed s u) (s' : State) : Pace (s, s') (u, s')
  | right (s : State) {s' u' : State} (h : Deed s' u') : Pace (s, s') (s, u')

/-- Any number of paces. -/
abbrev Paces : State × State → State × State → Prop :=
  Relation.ReflTransGen Pace

theorem map_putAt {α β : Type} (g : α → β) (xs : Array (Option α)) (i : Nat)
    (x : α) :
    (State.putAt xs i x).map (Option.map g)
      = State.putAt (xs.map (Option.map g)) i (g x) := by
  unfold State.putAt
  rw [Array.map_setIfInBounds, Array.map_append, Array.map_replicate,
    Array.size_map]
  rfl

section Alone

variable (s : State)

theorem preprocessing_found (name : String) (t : Token)
    {content : Item.Content} (h : content.isPreprocessed = true) :
    (s.addItem name t content).preprocessing
      = { s.preprocessing with
          items := s.preprocessing.items ++ [(name, t, content)] } := by
  have hitems := preprocessed_addItem s name t content
  rw [if_pos h] at hitems
  unfold State.preprocessing
  rw [hitems]
  rfl

theorem preprocessing_recordLine (line : Nat) :
    (s.recordLine line).preprocessing
      = { s.preprocessing with
          flags := State.putAt s.preprocessing.flags line
            (s.preprocessing.branches.any (!·.1)) } := by
  unfold State.preprocessing State.recordLine
  dsimp only
  rw [map_putAt, ← Nesting.inFalseBranch_branches]
  rfl

end Alone

section Paces

variable {s s' u u' : State}

theorem InStep.source (h : InStep s s') : s.source = s'.source :=
  congrArg Preprocessing.source h

theorem InStep.branches (h : InStep s s') :
    s.nesting.branches = s'.nesting.branches :=
  congrArg Preprocessing.branches h

theorem InStep.inFalseBranch (h : InStep s s') :
    s.nesting.inFalseBranch = s'.nesting.inFalseBranch := by
  rw [Nesting.inFalseBranch_branches, Nesting.inFalseBranch_branches,
    h.branches]

/-- A pace leaves two parses in step. -/
theorem InStep.pace (h : InStep s s') (hp : Pace (s, s') (u, u')) :
    InStep u u' := by
  unfold InStep at h ⊢
  cases hp with
  | read _ _ source =>
      exact congrArg (fun p : Preprocessing => { p with source }) h
  | found _ _ name t content hc =>
      rw [preprocessing_found _ name t hc, preprocessing_found _ name t hc, h]
  | branched _ _ n n' hn =>
      show { s.preprocessing with branches := n.branches }
        = { s'.preprocessing with branches := n'.branches }
      rw [h, hn]
  | lineEnded _ _ line =>
      rw [preprocessing_recordLine, preprocessing_recordLine, h]
  | left hd => exact (Deed.preprocessing hd).trans h
  | right _ hd => exact h.trans (Deed.preprocessing hd).symm

theorem InStep.paces (h : InStep s s') {p : State × State}
    (hp : Paces (s, s') p) : InStep p.1 p.2 := by
  induction hp with
  | refl => exact h
  | tail _ hp ih => exact ih.pace hp

namespace Paces

/-- What both read on depends on the source alone. -/
theorem read (h : InStep s s') (f : Source → Source) :
    Paces (s, s')
      ({ s with source := f s.source }, { s' with source := f s'.source }) := by
  rw [← h.source]
  exact .single (.read s s' _)

/-- So does what both find. -/
theorem found (h : InStep s s') (name : String) (t : Token)
    (content : Source → Item.Content)
    (hc : ∀ source, (content source).isPreprocessed = true) :
    Paces (s, s') (s.addItem name t (content s.source),
      s'.addItem name t (content s'.source)) := by
  rw [← h.source]
  exact .single (.found s s' name t _ (hc _))

theorem left (h : Deeds s u) (s' : State) : Paces (s, s') (u, s') := by
  induction h with
  | refl => exact .refl
  | tail _ hd ih => exact ih.tail (.left hd s')

theorem right (s : State) (h : Deeds s' u') : Paces (s, s') (s, u') := by
  induction h with
  | refl => exact .refl
  | tail _ hd ih => exact ih.tail (.right s hd)

/-- Each does its own deeds. -/
theorem both (h : Deeds s u) (h' : Deeds s' u') :
    Paces (s, s') (u, u') :=
  (left h s').trans (right u h')

end Paces

end Paces

end Parse

end AblOutline
