/-
States in small letters. `State.small` makes small what a parse copies from
its text: the tokens it has still to read and those it keeps, names and values,
and the questions it has put. Keywords that are kept in capitals, tables that
are kept by names in small letters, and all numbers stay as they are. What is
done to a state in small letters is what is done to the state, made small.
-/
import AblOutline.Nesting.Closing
import AblOutline.Parse.Run
import AblOutline.Proofs.Letters.Reading

namespace AblOutline

open Text

-- ================================================================= small

namespace Item

def Prototype.small (f : Prototype) : Prototype :=
  { f with
    returnType := lower f.returnType, parameters := lower f.parameters
    inHandle := f.inHandle.map lower }

def Implementation.small (f : Implementation) : Implementation :=
  { f with
    returnType := lower f.returnType, parameters := lower f.parameters }

/-- The content with the texts that it copies in small letters. -/
def Content.small : Content → Content
  | file path => file path
  | editorSection type description =>
    editorSection (lower type) (lower description)
  | procedure p => procedure p.small
  | prototype f => prototype f.small
  | implementation f => implementation f.small
  | method m => method m.small
  | label block => label block
  | run r => run r.small
  | trigger t => trigger t.small
  | call declared dynamic => call declared dynamic
  | tableUse temporary => tableUse temporary
  | buffer table temporary => buffer (lower table) temporary
  | definition d => definition d.small
  | name value isGlobal undefine => name (lower value) isGlobal undefine
  | nameUse defined => nameUse defined
  | inclusion path owner => inclusion path owner
  | event => event
  | word => word
  | snippet => snippet

def small (i : Item) : Item :=
  { i with
    name := lower i.name, token := i.token.small, content := i.content.small }

end Item

def StructureError.small (e : StructureError) : StructureError :=
  { e with token := e.token.small }

def Scope.small : Scope → Scope
  | file item => file item
  | routine item kind keyword opener => routine item kind keyword opener.small
  | conditional opener active taken => conditional opener.small active taken
  | suspended item opener => suspended item opener.small
  | block opener keyword label => block opener.small keyword label

def OpenScope.small (o : OpenScope) : OpenScope :=
  { o with scope := o.scope.small }

def Nesting.small (n : Nesting) : Nesting := ⟨n.scopes.map OpenScope.small⟩

def Cursor.small (c : Cursor) : Cursor :=
  { passed := c.passed.map Token.small, ahead := c.ahead.map Token.small
    beyond := c.beyond.small }

/-- The values of the definitions in small letters, as their names are. -/
def Preprocess.Definitions.small (d : Definitions) : Definitions :=
  { everywhere := d.everywhere.map (Prod.map id lower)
    inFiles := d.inFiles.map (Prod.map id lower) }

def Query.small : Query → Query
  | resolve name including => resolve (lower name) including
  | load path => load path

def Platform.small (p : Platform) : Platform :=
  { p with
    opsys := lower p.opsys, windowSystem := lower p.windowSystem
    proversion := lower p.proversion }

def Environment.small (env : Environment) : Environment :=
  { env with options :=
    { env.options with platform := env.options.platform.small } }

namespace Parse

def Source.small (s : Source) : Source :=
  { s with
    cursor := s.cursor.small, definitions := s.definitions.small
    asked := s.asked.map Query.small }

def Findings.small (f : Findings) : Findings :=
  { f with
    items := f.items.map Item.small
    errors := f.errors.map StructureError.small }

def Analysis.small (a : Analysis) : Analysis :=
  { a with statement := a.statement.small }

def State.small (s : State) : State :=
  { source := s.source.small, nesting := s.nesting.small
    findings := s.findings.small, analysis := s.analysis.small }

def Outcome.small (o : Outcome) : Outcome :=
  { state := o.state.small, fault := o.fault.map AnalysisFault.small }

end Parse

-- ================================================================= twice

section Twice

theorem Text.map_lower_lower (text : Option String) :
    (text.map lower).map lower = text.map lower := by
  rw [Option.map_map]
  exact congrArg (text.map ·) (funext lower_lower)

theorem Item.Content.small_small (c : Item.Content) : c.small.small = c.small := by
  cases c with
  | procedure p =>
      show procedure ⟨(p.external.map lower).map lower, _, _⟩ = _
      rw [map_lower_lower]
      rfl
  | prototype f =>
      show prototype ⟨lower (lower _), lower (lower _), _,
        (f.inHandle.map lower).map lower, _⟩ = _
      rw [lower_lower, lower_lower, map_lower_lower]
      rfl
  | run r =>
      show run ⟨lower (lower _), _, _, (r.inHandle.map lower).map lower, _⟩ = _
      rw [lower_lower, map_lower_lower]
      rfl
  | definition d =>
      show definition ⟨_, lower (lower _), _, (d.like.map lower).map lower, _⟩
        = _
      rw [lower_lower, map_lower_lower]
      rfl
  | editorSection type description =>
      show editorSection (lower (lower _)) (lower (lower _)) = _
      rw [lower_lower, lower_lower]
      rfl
  | implementation f =>
      show implementation ⟨lower (lower _), lower (lower _), _, _⟩ = _
      rw [lower_lower, lower_lower]
      rfl
  | method m =>
      show method ⟨_, lower (lower _), _, lower (lower _), _⟩ = _
      rw [lower_lower, lower_lower]
      rfl
  | trigger t =>
      show trigger ⟨lower (lower _), lower (lower _), _⟩ = _
      rw [lower_lower, lower_lower]
      rfl
  | buffer table temporary =>
      show buffer (lower (lower _)) _ = _
      rw [lower_lower]
      rfl
  | name value isGlobal undefine =>
      show name (lower (lower _)) _ _ = _
      rw [lower_lower]
      rfl
  | file | label | call | tableUse | nameUse | inclusion | event | word
  | snippet => rfl

theorem Item.small_small (i : Item) : i.small.small = i.small := by
  unfold small
  rw [lower_lower, Token.small_small, Content.small_small]

theorem StructureError.small_small (e : StructureError) :
    e.small.small = e.small := by
  unfold small
  rw [Token.small_small]

theorem OpenScope.small_small (o : OpenScope) : o.small.small = o.small := by
  obtain ⟨scope, line⟩ := o
  unfold small
  refine congrArg (OpenScope.mk · line) ?_
  cases scope <;> unfold Scope.small <;> simp only [Token.small_small]

/-- What is made small in each of a row is made small in all of it. -/
theorem Text.map_small_small {α : Type} {small : α → α}
    (h : ∀ a, small (small a) = small a) (as : List α) :
    (as.map small).map small = as.map small := by
  rw [List.map_map]
  exact List.map_congr_left fun a _ => h a

theorem Nesting.small_small (n : Nesting) : n.small.small = n.small :=
  congrArg Nesting.mk (map_small_small OpenScope.small_small n.scopes)

theorem Cursor.small_small (c : Cursor) : c.small.small = c.small := by
  unfold small
  rw [map_small_small Token.small_small, map_small_small Token.small_small,
    Token.small_small]

theorem Preprocess.Definitions.small_small (d : Definitions) :
    d.small.small = d.small := by
  have hvalue : ∀ {α : Type} (x : α × String),
      Prod.map id lower (Prod.map id lower x) = Prod.map id lower x := by
    intro α x
    rw [Prod.map_map, Function.comp_id,
      show lower ∘ lower = lower from funext lower_lower]
  unfold small
  rw [map_small_small hvalue, map_small_small hvalue]

theorem Query.small_small (q : Query) : q.small.small = q.small := by
  cases q with
  | resolve name including =>
      exact congrArg (Query.resolve · including) (lower_lower name)
  | load => rfl

theorem Platform.small_small (p : Platform) : p.small.small = p.small := by
  unfold small
  rw [lower_lower, lower_lower, lower_lower]

theorem Environment.small_small (env : Environment) :
    env.small.small = env.small := by
  unfold small
  rw [Platform.small_small]

theorem Parse.State.small_small (s : State) : s.small.small = s.small := by
  have hitems : (s.findings.items.map Item.small).map Item.small
      = s.findings.items.map Item.small := by
    rw [Array.map_map,
      show Item.small ∘ Item.small = Item.small from funext Item.small_small]
  unfold small Source.small Findings.small Analysis.small
  rw [Cursor.small_small, Preprocess.Definitions.small_small,
    map_small_small Query.small_small, Nesting.small_small, hitems,
    map_small_small StructureError.small_small, Statement.small_small]

end Twice

-- =============================================================== nesting

namespace Nesting

variable (n : Nesting)

theorem depth_small : n.small.depth = n.depth := List.length_map ..

theorem allActive_small (scopes : List OpenScope) :
    allActive (scopes.map OpenScope.small) = allActive scopes := by
  unfold allActive
  rw [List.all_map]
  refine congrArg scopes.all (funext fun o => ?_)
  obtain ⟨scope, line⟩ := o
  cases scope <;> rfl

theorem inFalseBranch_small : n.small.inFalseBranch = n.inFalseBranch := by
  unfold inFalseBranch
  show (n.scopes.map _).any _ = _
  rw [List.any_map]
  refine congrArg n.scopes.any (funext fun o => ?_)
  obtain ⟨scope, line⟩ := o
  cases scope <;> rfl

theorem currentItem?_small : n.small.currentItem? = n.currentItem? := by
  unfold currentItem?
  show (n.scopes.map _).findSome? _ = _
  rw [List.findSome?_map]
  refine congrArg (List.findSome? · n.scopes) (funext fun o => ?_)
  obtain ⟨scope, line⟩ := o
  cases scope <;> rfl

theorem openRoutines_small : n.small.openRoutines = n.openRoutines := by
  unfold openRoutines
  show (n.scopes.map _).countP _ = _
  rw [List.countP_map]
  refine congrArg (List.countP · n.scopes) (funext fun o => ?_)
  obtain ⟨scope, line⟩ := o
  cases scope <;> rfl

theorem frames_small : n.small.frames = n.frames := by
  unfold frames
  show ((n.scopes.map _).map _).reverse = _
  rw [List.map_map]
  refine congrArg List.reverse (List.map_congr_left fun o _ => ?_)
  obtain ⟨scope, line⟩ := o
  cases scope with
  | routine item kind keyword opener => cases kind <;> rfl
  | _ => rfl

theorem innermost?_small {p : Scope → Bool}
    (hp : ∀ scope : Scope, p scope.small = p scope) :
    n.small.innermost? p
      = (n.innermost? p).map (Prod.map (List.map OpenScope.small)
        (Prod.map OpenScope.small (List.map OpenScope.small))) := by
  have hsplit : ∀ scopes : List OpenScope,
      splitScopes p (scopes.map OpenScope.small)
        = (splitScopes p scopes).map (Prod.map (List.map OpenScope.small)
          (Prod.map OpenScope.small (List.map OpenScope.small))) := by
    intro scopes
    induction scopes with
    | nil => rfl
    | cons o rest ih =>
        rw [List.map_cons, splitScopes, splitScopes, ih]
        show (if p o.scope.small then _ else _) = _
        rw [hp]
        split
        · rfl
        · rw [Option.map_map, Option.map_map]
          rfl
  exact hsplit n.scopes

theorem isConditional_small (scope : Scope) :
    scope.small.isConditional = scope.isConditional := by
  cases scope <;> rfl

theorem mayTurn?_small : n.small.mayTurn? = n.mayTurn? := by
  unfold mayTurn?
  rw [innermost?_small n isConditional_small, Option.map_map]
  refine congrArg (Option.map · _) (funext fun parts => ?_)
  obtain ⟨within, ⟨scope, line⟩, around⟩ := parts
  show (allActive (around.map _) && !wasTaken scope.small) = _
  rw [allActive_small]
  cases scope <;> rfl

theorem turn_small (active spent : Bool) :
    n.small.turn active spent = (n.turn active spent).small := by
  unfold turn
  rw [innermost?_small n isConditional_small]
  cases n.innermost? Scope.isConditional with
  | none => rfl
  | some parts =>
      obtain ⟨within, ⟨scope, line⟩, around⟩ := parts
      refine congrArg Nesting.mk ?_
      dsimp only
      rw [List.map_append]
      cases scope <;> rfl

theorem endIf?_small : n.small.endIf? = n.endIf?.map Nesting.small := by
  unfold endIf?
  rw [innermost?_small n isConditional_small, Option.map_map, Option.map_map]
  refine congrArg (Option.map · _) (funext fun parts => ?_)
  exact congrArg Nesting.mk List.map_append.symm

theorem endBlock?_small :
    n.small.endBlock?
      = n.endBlock?.map (Prod.map Scope.small Nesting.small) := by
  unfold endBlock?
  rw [innermost?_small n fun scope => congrArg (!·)
    (isConditional_small scope)]
  cases n.innermost? (!·.isConditional) with
  | none => rfl
  | some parts =>
      obtain ⟨within, ⟨scope, line⟩, around⟩ := parts
      have hlike : scope.small.isBlockLike = scope.isBlockLike := by
        cases scope <;> rfl
      show (if scope.small.isBlockLike then _ else _) = _
      rw [hlike]
      dsimp only
      split
      · refine congrArg some (congrArg (Prod.mk _) ?_)
        exact congrArg Nesting.mk List.map_append.symm
      · rfl

theorem endSection?_small :
    n.small.endSection?
      = n.endSection?.map (Prod.map Scope.small Nesting.small) := by
  unfold endSection?
  rw [innermost?_small n fun scope => by cases scope <;> rfl, Option.map_map,
    Option.map_map]
  refine congrArg (Option.map · _) (funext fun parts => ?_)
  exact congrArg (Prod.mk _) (congrArg Nesting.mk List.map_append.symm)

end Nesting

namespace Parse

namespace State

variable (s : State) (t : Token)

-- =============================================================== looking

theorem rootLine_small : s.small.rootLine t.small = s.rootLine t := rfl

theorem inFalseBranch_small : s.small.inFalseBranch = s.inFalseBranch :=
  s.nesting.inFalseBranch_small

theorem nextItem_small : s.small.nextItem = s.nextItem := Array.size_map

theorem scopeItem?_small : s.small.scopeItem? = s.scopeItem? := by
  unfold scopeItem?
  show Option.or _ s.nesting.small.currentItem? = _
  rw [Nesting.currentItem?_small]
  rfl

theorem function?_small (name : String) :
    s.small.function? (lower name) = s.function? name := by
  unfold function?
  rw [lower_lower]
  rfl

theorem localTable?_small (name : String) :
    s.small.localTable? (lower name) = s.localTable? name := by
  unfold localTable?
  rw [lower_lower]
  rfl

-- ================================================================= items

theorem modify_small (items : Array Item) (id : ItemId) {f f' : Item → Item}
    (hf : ∀ i : Item, f' i.small = (f i).small) :
    (items.map Item.small).modify id f'
      = (items.modify id f).map Item.small := by
  refine Array.ext_getElem? fun k => ?_
  rw [Array.getElem?_map, Array.getElem?_modify, Array.getElem?_modify,
    Array.getElem?_map]
  split
  · rw [Option.map_map, Option.map_map]
    exact congrArg (items[k]?.map ·) (funext hf)
  · rfl

/-- The state with other items. -/
theorem withItems_small (items : Array Item) :
    { s with findings := { s.findings with items } }.small
      = { s.small with findings :=
        { s.small.findings with items := items.map Item.small } } := rfl

theorem addItemIn_small (scope : Option ItemId) (name : String)
    (content : Item.Content) :
    s.small.addItemIn scope (lower name) t.small content.small
      = (s.addItemIn scope name t content).small := by
  have hsize : s.small.findings.items.size = s.findings.items.size :=
    Array.size_map
  have hpush : ∀ i : Item, s.small.findings.items.push i.small
      = (s.findings.items.push i).map Item.small :=
    fun i => Array.map_push.symm
  have hitem := hpush ⟨s.findings.items.size, name, t, s.rootLine t, scope, [],
    none, content⟩
  unfold addItemIn
  dsimp only
  rw [hsize]
  refine Eq.trans ?_ (s.withItems_small _).symm
  refine congrArg (fun items : Array Item => { s.small with findings :=
    { s.small.findings with items } }) ?_
  cases scope with
  | none => exact hitem
  | some parent =>
      exact (congrArg (fun items : Array Item =>
          items.modify parent (withChild s.findings.items.size)) hitem).trans
        (modify_small _ parent fun _ => rfl)

theorem addItem_small (name : String) (content : Item.Content) :
    s.small.addItem (lower name) t.small content.small
      = (s.addItem name t content).small := by
  unfold addItem
  rw [scopeItem?_small, addItemIn_small]

theorem changeItem?_small (id : ItemId) {f f' : Item → Item}
    (hf : ∀ i : Item, f' i.small = (f i).small) :
    s.small.changeItem? id f' = (s.changeItem? id f).map small := by
  have hsize : s.small.findings.items.size = s.findings.items.size :=
    Array.size_map
  unfold changeItem?
  rw [hsize]
  split
  · refine congrArg (fun items : Array Item => some { s.small with findings :=
      { s.small.findings with items } }) ?_
    exact modify_small _ id hf
  · rfl

theorem setEndLine?_small (id : ItemId) (line : Nat) :
    s.small.setEndLine? id line = (s.setEndLine? id line).map small :=
  s.changeItem?_small id fun _ => rfl

-- ====================================================== scopes and faults

theorem openScope_small (scope : Scope) :
    s.small.openScope scope.small t.small = (s.openScope scope t).small := rfl

theorem addErrorAt_small (fault : StructureFault) (line depth : Nat) :
    s.small.addErrorAt fault t.small line depth
      = (s.addErrorAt fault t line depth).small := by
  have happend : ∀ e : StructureError, s.small.findings.errors ++ [e.small]
      = (s.findings.errors ++ [e]).map StructureError.small := by
    intro e
    rw [List.map_append]
    rfl
  exact congrArg (fun errors : List StructureError => { s.small with
    findings := { s.small.findings with errors } })
    (happend ⟨fault, t, line, depth, s.source.chain.path? t.owner⟩)

theorem addError_small (fault : StructureFault) :
    s.small.addError fault t.small = (s.addError fault t).small := by
  unfold addError
  show s.small.addErrorAt fault t.small _ s.nesting.small.depth = _
  rw [Nesting.depth_small, rootLine_small, addErrorAt_small]

theorem recordLine_small (line : Nat) :
    s.small.recordLine line = (s.recordLine line).small := by
  have hline : LineState.ofNesting s.nesting.small
      = .ofNesting s.nesting := by
    unfold LineState.ofNesting
    rw [Nesting.frames_small, Nesting.inFalseBranch_small]
  unfold recordLine
  show State.mk _ _ { s.small.findings with
    lines := putAt _ _ (.ofNesting s.nesting.small) } _ = _
  rw [hline]
  rfl

end State

end Parse

end AblOutline
