/-
The faults that a parse meets. A source may fail to name something, and that
is all that goes wrong: the file is always open, and whatever item a scope, a
label, a trigger or a function refers to is there (`Sound`), so no fault tells
of a defect of the parse itself (`look_regular`, `endStatement_regular`). A
statement that ends with a fault was refused before anything was done
(`endByKind_refuses`).
-/
import AblOutline.Proofs.Change.Run

namespace AblOutline

/-- The fault tells of a defect of the parse, not of the source: no scope is
open, or an item is missing. -/
def AnalysisFault.isDefect : AnalysisFault → Bool
  | .missingName _ _ => false
  | .danglingItem _ | .noScope _ => true

namespace Parse

/-- The work ended without a fault, or with one of the source. -/
def Outcome.Regular (o : Outcome) : Prop :=
  ∀ f, o.fault = some f → f.isDefect = false

/-- What can be read, or names nothing. -/
def Legible {α : Type} (read : Except AnalysisFault α) : Prop :=
  ∀ f, read = .error f → f.isDefect = false

theorem regular_of_none {o : Outcome} (h : o.fault = none) : o.Regular := by
  intro f hf
  rw [h] at hf
  cases hf

theorem done_regular (s : State) : s.done.Regular := regular_of_none rfl

-- =============================================================== reading

section Reading

variable {α β : Type}

theorem legible_ok (a : α) : Legible (.ok a) := nofun

theorem Legible.bind {read : Except AnalysisFault α}
    {next : α → Except AnalysisFault β} (h : Legible read)
    (hn : ∀ a, Legible (next a)) : Legible (read >>= next) := by
  cases read with
  | ok a => exact hn a
  | error fault =>
      intro f hf
      cases hf
      exact h fault rfl

variable (st : Statement)

theorem legible_missingName : Legible (.error st.missingName : Except _ α) := by
  rintro f ⟨⟩
  rfl

/-- What is read unless nothing is named. -/
theorem legible_unless (c : Prop) [Decidable c] (a : α) :
    Legible (if c then (do throw st.missingName; pure a) else pure a) := by
  split
  · exact (legible_missingName st).bind fun _ => legible_ok a
  · exact legible_ok a

theorem legible_opening : Legible st.opening := by
  unfold Statement.opening
  split
  · exact legible_ok _
  · exact legible_missingName st

theorem legible_nameAt (index : Nat) : Legible (st.nameAt index) := by
  unfold Statement.nameAt
  split
  · split
    · exact legible_ok _
    · exact legible_missingName st
  · exact legible_missingName st

theorem legible_procedureHead : Legible st.procedureHead :=
  (legible_opening st).bind fun _ => (legible_nameAt st 1).bind fun _ =>
    legible_ok _

theorem legible_functionHead : Legible st.functionHead :=
  (legible_opening st).bind fun _ => (legible_nameAt st 1).bind fun _ =>
    legible_ok _

theorem legible_methodHead (colon : Bool) :
    Legible (st.methodHead colon) := by
  refine (legible_opening st).bind fun opener => ?_
  dsimp only
  split
  · exact (legible_nameAt st _).bind fun _ => legible_ok _
  · exact legible_missingName st

theorem legible_runHead : Legible st.runHead := by
  unfold Statement.runHead
  split
  · dsimp only
    split
    · exact legible_unless st _ _
    · exact legible_unless st _ _
  · exact legible_missingName st

theorem legible_bufferAt (index : Nat) : Legible (st.bufferAt index) :=
  (legible_nameAt st index).bind fun _ => legible_ok _

theorem legible_namedAt (type : DefineType) (modifiers : List String)
    (index : Nat) : Legible (st.namedAt type modifiers index) := by
  refine (legible_nameAt st index).bind fun named => ?_
  dsimp only
  split
  · exact legible_ok _
  · exact legible_ok _

theorem legible_defined : Legible st.defined := by
  unfold Statement.defined
  dsimp only
  split
  · split
    · exact legible_bufferAt st _
    · split
      · exact legible_bufferAt st _
      · exact legible_namedAt st _ _ _
    · exact legible_namedAt st _ _ _
  · exact legible_ok _

theorem legible_varHead : Legible st.varHead := by
  unfold Statement.varHead
  dsimp only
  split
  · split
    · exact legible_unless st _ _
    · exact legible_unless st _ _
  · exact legible_missingName st

end Reading

-- ================================================================= items

theorem lt_of_isA {items : Array Item} {id : ItemId} {sort : String}
    (h : IsA items id sort) : id < items.size := by
  obtain ⟨item, hi, -⟩ := h
  exact (Array.getElem?_eq_some_iff.1 hi).1

/-- The item of a scope is there. -/
theorem ScopeFits.lt {items : Array Item} (hf : Forest items) {scope : Scope}
    {id : ItemId} (h : ScopeFits items scope)
    (hi : scope.item? = some id ∨ (State.endedBy scope).2 = some id) :
    id < items.size := by
  rcases hi with hi | hi
  · obtain ⟨owner, ho, -⟩ := h.owner hf hi
    exact (Array.getElem?_eq_some_iff.1 ho).1
  · cases scope with
    | routine item kind keyword opener =>
        cases hi
        exact lt_of_isA h
    | block opener keyword label => exact lt_of_isA (h id hi)
    | file item => cases hi
    | conditional opener active taken => cases hi
    | suspended item opener => cases hi

/-- The items that a scope, a label or a function refers to are there. -/
structure Grounded (s : State) : Prop where
  scope : ∀ o ∈ s.nesting.scopes, ∀ id, o.scope.item? = some id
    ∨ (State.endedBy o.scope).2 = some id → id < s.findings.items.size
  label : ∀ id, s.analysis.pendingLabel = some id → id < s.findings.items.size
  prototype : ∀ name id, ((s.function? name).getD {}).prototype = some id →
    id < s.findings.items.size
  implementation : ∀ name id,
    ((s.function? name).getD {}).implementation = some id →
    id < s.findings.items.size

theorem Sound.grounded {s : State} (hs : Sound s) : Grounded s where
  scope o ho _ hid := (hs.scopes o ho).lt hs.forest hid
  label _ hid := lt_of_isA (hs.analysis.label hid)
  prototype name id hid := lt_of_isA ((hs.function name).1 id hid)
  implementation name id hid := lt_of_isA ((hs.function name).2 id hid)

theorem lt_size_addItem {s : State} {name : String} {t : Token}
    {content : Item.Content} {id : ItemId} (h : id < s.findings.items.size) :
    id < (s.addItem name t content).findings.items.size := by
  unfold State.addItem State.addItemIn
  cases s.scopeItem? with
  | none =>
      dsimp only [Option.elim]
      rw [Array.size_push]
      exact Nat.lt_succ_of_lt h
  | some parent =>
      dsimp only [Option.elim]
      rw [Array.size_modify, Array.size_push]
      exact Nat.lt_succ_of_lt h

-- =============================================================== refusals

/-- The work was done, or refused: then the state is the same as before, and
the fault is one of the source unless something was `missing`. -/
def Outcome.Refuses (s : State) (missing : Prop) (o : Outcome) : Prop :=
  ∀ f, o.fault = some f → o.state = s ∧ (f.isDefect = true → missing)

section Ending

variable (env : Environment) (s : State) (st : Statement) {missing : Prop}

theorem refuses_of_none {o : Outcome} (h : o.fault = none) :
    o.Refuses s missing := by
  intro f hf
  rw [h] at hf
  cases hf

theorem reading_refuses {α : Type} {read : Except AnalysisFault α}
    {work : α → Outcome} (hr : Legible read)
    (h : ∀ a, (work a).Refuses s missing) :
    (s.reading read work).Refuses s missing := by
  unfold State.reading
  cases read with
  | ok a => exact h a
  | error fault =>
      intro f hf
      refine ⟨rfl, fun hdefect => ?_⟩
      rw [hr f (congrArg Except.error (Option.some.inj hf))] at hdefect
      cases hdefect

/-- Work on an item that is there goes on. -/
theorem changing_faultless {item : Option ItemId} {f : Item → Item}
    {next : State → Outcome}
    (hi : ∀ id, item = some id → id < s.findings.items.size)
    (h : ∀ u, (next u).fault = none) : (s.changing item f next).fault = none := by
  unfold State.changing
  cases item with
  | none => exact h s
  | some id =>
      unfold State.changeItem?
      dsimp only
      rw [if_pos (hi id rfl)]
      exact h _

theorem endFunction_refuses (hg : Grounded s) (colon : Bool) :
    (s.endFunction st colon).Refuses s missing := by
  refine reading_refuses s (legible_functionHead st) fun head => ?_
  split
  · exact refuses_of_none s (changing_faultless _ (fun id hid =>
      lt_size_addItem (hg.prototype head.name id hid)) fun _ => rfl)
  · exact refuses_of_none s (changing_faultless _ (fun id hid =>
      lt_size_addItem (hg.implementation head.name id hid)) fun _ => rfl)

theorem endMethod_refuses (colon : Bool) :
    (s.endMethod st colon).Refuses s missing := by
  refine reading_refuses s (legible_methodHead st colon) fun head => ?_
  dsimp only
  split <;> exact refuses_of_none s rfl

theorem endOn_refuses : (s.endOn st).Refuses s missing := by
  unfold State.endOn
  split
  · exact reading_refuses s (legible_opening st) fun _ => refuses_of_none s rfl
  · exact refuses_of_none s rfl

theorem endDefine_refuses (colon : Bool) :
    (s.endDefine st colon).Refuses s missing := by
  refine reading_refuses s (legible_defined st) fun defined => ?_
  cases defined <;> exact refuses_of_none s rfl

/-- The trigger whose action a statement is may be missing: that is found
before anything is done. -/
theorem endBlockHead_refuses (hg : Grounded s) :
    (s.endBlockHead st).Refuses s
      (∃ id, st.trigger = some id ∧ s.findings.items.size ≤ id) := by
  refine reading_refuses s (legible_opening st) fun opener => ?_
  dsimp only
  split
  · rename_i trigger htrigger
    have hst : st.trigger = some trigger := by
      split at htrigger
      · exact htrigger
      · cases htrigger
    by_cases hlt : trigger < s.findings.items.size
    · refine refuses_of_none s (changing_faultless s ?_ fun _ => rfl)
      rintro id ⟨⟩
      exact hlt
    · unfold State.changing State.changeItem?
      dsimp only
      rw [if_neg hlt]
      exact fun f _ => ⟨rfl, fun _ => ⟨trigger, hst, Nat.not_lt.1 hlt⟩⟩
  · exact refuses_of_none s (changing_faultless _ hg.label fun _ => rfl)

theorem endBlock_refuses (hg : Grounded s) :
    (s.endBlock st).Refuses s missing := by
  refine reading_refuses s (legible_opening st) fun stop => ?_
  split
  · exact refuses_of_none s rfl
  · rename_i scope nesting he
    obtain ⟨within, line, around, hscopes, -, -⟩ := endBlock?_eq_some he
    refine refuses_of_none s
      (changing_faultless _ (fun id hid => ?_) fun _ => rfl)
    have hlt := hg.scope ⟨scope, line⟩ (by rw [hscopes]; simp) id (Or.inr hid)
    show id < (if State.isMismatched st (State.endedBy scope).1 = true then
      _ else _ : State).findings.items.size
    cases State.isMismatched st (State.endedBy scope).1 with
    | true => exact hlt
    | false => exact hlt

/-- A statement of any kind that ends with a fault was refused: nothing was
done. -/
theorem endByKind_refuses (hg : Grounded s) (colon : Bool) :
    (s.endByKind env st colon).1.Refuses s
      (∃ id, st.trigger = some id ∧ s.findings.items.size ≤ id) := by
  unfold State.endByKind
  cases st.kind with
  | procedure =>
      exact reading_refuses s (legible_procedureHead st) fun _ =>
        refuses_of_none s rfl
  | function => exact endFunction_refuses s st hg colon
  | method => exact endMethod_refuses s st colon
  | constructor => exact endMethod_refuses s st colon
  | destructor => exact endMethod_refuses s st colon
  | on => exact endOn_refuses s st
  | run =>
      exact reading_refuses s (legible_runHead st) fun _ =>
        refuses_of_none s rfl
  | define => exact endDefine_refuses s st colon
  | var =>
      exact reading_refuses s (legible_varHead st) fun _ =>
        refuses_of_none s rfl
  | close => exact endBlock_refuses s st hg
  | block => exact endBlockHead_refuses s st hg
  | accessor =>
      dsimp only
      split
      · exact endBlockHead_refuses s st hg
      · exact refuses_of_none s rfl
  | other =>
      dsimp only
      split <;> exact refuses_of_none s rfl

/-- No statement ends with a defect. -/
theorem endStatement_regular (hs : Sound s)
    (ht : ∀ id, st.trigger = some id → IsA s.findings.items id "on")
    (stop : Token) : (s.endStatement env st stop).Regular := by
  intro f hf
  have hg : Grounded (s.under st.trigger) :=
    ((under_keeps s st.trigger fun _ => ht).sound hs).grounded
  refine Bool.eq_false_iff.2 fun hdefect => ?_
  obtain ⟨id, hid, hle⟩ := (endByKind_refuses env _ st hg _ f hf).2 hdefect
  exact Nat.not_lt.2 hle (lt_of_isA (ht id hid))

end Ending

-- ================================================================ tokens

section Looking

variable {env : Environment} {steps : Nat} {s : State} {t : Token}
  {o : Outcome}

theorem unnamed_regular (s : State) (t : Token) : (s.unnamed t).Regular := by
  rintro f ⟨⟩
  rfl

theorem defineName_regular {isGlobal : Bool}
    (h : s.defineName env steps t isGlobal = some o) : o.Regular := by
  obtain ⟨⟨u, operands⟩, -, h⟩ := Option.bind_eq_some_iff.1 h
  dsimp only at h
  split at h
  · cases h
    exact unnamed_regular u t
  · cases h
    exact done_regular _

theorem undefineName_regular (h : s.undefineName env steps t = some o) :
    o.Regular := by
  obtain ⟨⟨u, operands⟩, -, h⟩ := Option.bind_eq_some_iff.1 h
  dsimp only at h
  split at h
  · cases h
    exact unnamed_regular u t
  · cases h
    exact done_regular _

theorem endSection_regular (hs : Sound s)
    (h : s.endSection env steps t = some o) : o.Regular := by
  obtain ⟨⟨u, operands⟩, hu, h⟩ := Option.bind_eq_some_iff.1 h
  have hsound := (takeLine_keeps env hu).sound hs
  dsimp only at h
  split at h
  · cases h
    exact done_regular _
  · rename_i scope nesting he
    obtain ⟨within, line, around, hscopes, -, -⟩ := endSection?_eq_some he
    have hthere := hsound.grounded.scope ⟨scope, line⟩
      (by rw [hscopes]; simp)
    split at h
    · cases h
      exact done_regular _
    · rename_i item hitem
      split at h
      · cases h
        exact done_regular _
      · -- the item of the section is there
        rename_i hset
        have hlt := hthere item (Or.inl hitem)
        unfold State.setEndLine? State.changeItem? at hset
        rw [if_pos hlt] at hset
        cases hset

theorem directive_regular (hs : Sound s)
    (h : s.directive env steps t = some o) : o.Regular := by
  have hfaultless : ∀ {result : Option State} {o : Outcome},
      result.map (fun s => ({ state := s } : Outcome)) = some o →
      o.Regular := by
    intro result o h
    obtain ⟨u, -, rfl⟩ := Option.map_eq_some_iff.1 h
    exact done_regular u
  unfold State.directive at h
  dsimp only at h
  cases hd : Preprocess.Directive.ofWord t.text with
  | ifThen => rw [hd] at h; exact hfaultless h
  | elseIf => rw [hd] at h; exact hfaultless h
  | otherwise => rw [hd] at h; exact hfaultless h
  | endIf => rw [hd] at h; exact hfaultless h
  | thenPart => rw [hd] at h; exact hfaultless h
  | other => rw [hd] at h; exact hfaultless h
  | globalDefine =>
      rw [hd] at h
      dsimp only at h
      split at h
      · exact hfaultless h
      · exact defineName_regular h
  | scopedDefine =>
      rw [hd] at h
      dsimp only at h
      split at h
      · exact hfaultless h
      · exact defineName_regular h
  | undefine =>
      rw [hd] at h
      dsimp only at h
      split at h
      · exact hfaultless h
      · exact undefineName_regular h
  | analyzeSuspend =>
      rw [hd] at h
      dsimp only at h
      split at h
      · exact hfaultless h
      · exact hfaultless h
  | analyzeResume =>
      rw [hd] at h
      dsimp only at h
      split at h
      · exact hfaultless h
      · exact endSection_regular hs h
  | message =>
      rw [hd] at h
      dsimp only at h
      split at h
      · exact hfaultless h
      · exact hfaultless h

/-- No token is looked at with a defect: the file is open, and the items
referred to are there. -/
theorem look_regular {ended : Option Statement} (hs : Sound s)
    (he : ∀ e, ended = some e → ∀ id, e.trigger = some id →
      IsA s.findings.items id "on")
    (h : s.look env steps t ended = some o) : o.Regular := by
  unfold State.look at h
  rw [if_neg hs.depth_ne_zero] at h
  split at h
  · exact directive_regular hs h
  · split at h
    · cases h
      exact done_regular s
    · split at h
      · cases h
        exact done_regular _
      · cases h
        exact done_regular _
      · cases h
        exact done_regular _
      · split at h
        · rename_i st
          cases h
          exact endStatement_regular env _ st ((space_keeps s).sound hs)
            (he st rfl) t
        · cases h
          exact done_regular _
      · cases h
        exact done_regular s
      · cases h
        exact done_regular s
      · cases h
        exact done_regular s
      · cases h
        exact done_regular _

end Looking

end Parse

end AblOutline
