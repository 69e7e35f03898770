/-
The moves that a token makes. Whatever a token says, it opens, turns or closes
one scope at most, and it records no error that says that a scope is never
closed (`Moves`); both hold of every part of a step, so they hold of the step.
What `END` and `&ANALYZE-RESUME` do is told in full (`Stops`, `Resumes`).
-/
import AblOutline.Proofs.Branches
import AblOutline.Proofs.Resting
import AblOutline.Proofs.Scopes.Ledger

namespace AblOutline

/-- The fault says that a scope is never closed. -/
def StructureFault.isMissing : StructureFault → Bool
  | .missingEnd | .missingEndIf | .missingResume => true
  | .unexpectedEnd | .mismatchedEnd | .nestedRoutine | .unexpectedDirective
  | .unexpectedResume => false

namespace Parse

-- ================================================================ errors

/-- Errors are added, none of them saying that a scope is never closed. -/
def Adds (s s' : State) : Prop :=
  ∃ more, s'.findings.errors = s.findings.errors ++ more
    ∧ ∀ e ∈ more, e.fault.isMissing = false

namespace Adds

variable {s s' s'' : State}

theorem of_eq (h : s'.findings.errors = s.findings.errors) : Adds s s' :=
  ⟨[], by rw [h, List.append_nil], List.forall_mem_nil _⟩

theorem trans (h : Adds s s') (h' : Adds s' s'') : Adds s s'' := by
  obtain ⟨more, he, hm⟩ := h
  obtain ⟨more', he', hm'⟩ := h'
  refine ⟨more ++ more', by rw [he', he, List.append_assoc], fun e h => ?_⟩
  rcases List.mem_append.1 h with h | h
  · exact hm e h
  · exact hm' e h

theorem addErrorAt (s : State) {fault : StructureFault}
    (h : fault.isMissing = false) (t : Token) (line depth : Nat) :
    Adds s (s.addErrorAt fault t line depth) := by
  refine ⟨[_], rfl, fun e he => ?_⟩
  rw [List.mem_singleton.1 he]
  exact h

end Adds

-- ================================================================= moves

/-- At most one scope is opened, turned or closed, and no error says that one
is never closed. -/
structure Moves (s s' : State) : Prop where
  scopes : s'.nesting.scopes = s.nesting.scopes
    ∨ Shift s.nesting.scopes s'.nesting.scopes
  errors : Adds s s'

/-- The scopes stay as they are. -/
structure Holds (s s' : State) : Prop where
  scopes : s'.nesting.scopes = s.nesting.scopes
  errors : Adds s s'

variable {s s' s'' : State}

theorem Holds.of_eq (hn : s'.nesting = s.nesting)
    (he : s'.findings.errors = s.findings.errors) : Holds s s' :=
  ⟨by rw [hn], .of_eq he⟩

theorem Holds.refl (s : State) : Holds s s := .of_eq rfl rfl

theorem Holds.trans (h : Holds s s') (h' : Holds s' s'') : Holds s s'' :=
  ⟨h'.scopes.trans h.scopes, h.errors.trans h'.errors⟩

theorem Holds.moves (h : Holds s s') : Moves s s' :=
  ⟨Or.inl h.scopes, h.errors⟩

theorem Holds.then (h : Holds s s') (h' : Moves s' s'') : Moves s s'' :=
  ⟨h.scopes ▸ h'.scopes, h.errors.trans h'.errors⟩

theorem Moves.then (h : Moves s s') (h' : Holds s' s'') : Moves s s'' :=
  ⟨h'.scopes ▸ h.scopes, h.errors.trans h'.errors⟩

theorem ReadsOn.holds (h : ReadsOn s s') : Holds s s' :=
  .of_eq h.nesting h.errors

theorem holds_addError (s : State) {fault : StructureFault}
    (h : fault.isMissing = false) (t : Token) : Holds s (s.addError fault t) :=
  ⟨rfl, .addErrorAt s h t _ _⟩

theorem holds_addItem (s : State) (name : String) (t : Token)
    (content : Item.Content) : Holds s (s.addItem name t content) :=
  .of_eq rfl rfl

theorem holds_items (s : State) (items : Array Item) :
    Holds s { s with findings := { s.findings with items } } :=
  .of_eq rfl rfl

theorem holds_noted (s : State) (a : Analysis) :
    Holds s { s with analysis := a } :=
  .of_eq rfl rfl

theorem moves_openScope (s : State) {scope : Scope} (h : scope.kind ≠ .file)
    (opener : Token) : Moves s (s.openScope scope opener) :=
  ⟨Or.inr (.opens (o := ⟨scope, s.rootLine opener⟩) _ h), .of_eq rfl⟩

-- ================================================================== ends

/-- The error of that fault at a token, among the scopes that are open now. -/
def State.errorAt (s : State) (fault : StructureFault) (t : Token) :
    StructureError :=
  { fault, token := t, rootLine := s.rootLine t, depth := s.nesting.depth
    file := s.source.chain.path? t.owner }

/-- What an `END` does whose first token is `stop`. -/
inductive Stops (stop : Token) (s s' : State) : Prop where
  /-- It closes the innermost scope that is no `&IF`, a routine or a block. -/
  | closes (within around : List OpenScope) (o : OpenScope)
      (hs : s.nesting.scopes = within ++ o :: around)
      (hw : ∀ x ∈ within, x.scope.isConditional = true)
      (ho : o.scope.isBlockLike = true)
      (hs' : s'.nesting.scopes = within ++ around)
      (he : s'.findings.errors = s.findings.errors
        ∨ s'.findings.errors
          = s.findings.errors ++ [s.errorAt .mismatchedEnd stop])
  /-- That scope is neither, so nothing is closed and one error recorded. -/
  | refuses (within around : List OpenScope) (o : OpenScope)
      (hs : s.nesting.scopes = within ++ o :: around)
      (hw : ∀ x ∈ within, x.scope.isConditional = true)
      (hi : o.scope.isConditional = false)
      (ho : o.scope.isBlockLike = false)
      (hs' : s'.nesting.scopes = s.nesting.scopes)
      (he : s'.findings.errors
        = s.findings.errors ++ [s.errorAt .unexpectedEnd stop])

/-- What the `&ANALYZE-RESUME` at `t` does. -/
inductive Resumes (t : Token) (s s' : State) : Prop where
  /-- It closes the innermost section. -/
  | closes (within around : List OpenScope) (o : OpenScope)
      (hs : s.nesting.scopes = within ++ o :: around)
      (hw : ∀ x ∈ within, x.scope.isSuspended = false)
      (ho : o.scope.isSuspended = true)
      (hs' : s'.nesting.scopes = within ++ around)
      (he : s'.findings.errors = s.findings.errors)
  /-- No section is open, so nothing is closed and one error recorded. -/
  | refuses (hs : ∀ o ∈ s.nesting.scopes, o.scope.isSuspended = false)
      (hs' : s'.nesting.scopes = s.nesting.scopes)
      (he : s'.findings.errors
        = s.findings.errors ++ [s.errorAt .unexpectedResume t])

-- ============================================================ statements

section Statements

variable (env : Environment) (s : State) (st : Statement)

theorem reading_moves {α : Type} (read : Except AnalysisFault α)
    {work : α → Outcome} (h : ∀ a, Moves s (work a).state) :
    Moves s (s.reading read work).state := by
  unfold State.reading
  cases read with
  | ok a => exact h a
  | error fault => exact (Holds.refl s).moves

/-- Work that goes on after a change of one item. -/
theorem changing_moves (item : Option ItemId) (f : Item → Item)
    {next : State → Outcome} (h : ∀ u, Moves u (next u).state) :
    Moves s (s.changing item f next).state := by
  unfold State.changing
  cases item with
  | none => exact h s
  | some id =>
      unfold State.changeItem?
      dsimp only
      by_cases hid : id < s.findings.items.size
      · rw [if_pos hid]
        exact (holds_items s _).then (h _)
      · rw [if_neg hid]
        exact (Holds.refl s).moves

theorem openRoutine_moves (item : ItemId) (kind : RoutineKind)
    (keyword : String) (opener : Token) :
    Moves s (s.openRoutine item kind keyword opener) := by
  have hk : (Scope.routine item kind keyword opener).kind ≠ .file := by
    cases kind <;> nofun
  unfold State.openRoutine
  dsimp only
  split
  · exact (holds_addError s rfl opener).then (moves_openScope _ hk opener)
  · exact moves_openScope s hk opener

theorem endFunction_moves (colon : Bool) :
    Moves s (s.endFunction st colon).state := by
  refine reading_moves s _ fun head => ?_
  have hset : ∀ (u : State) name entry, Holds u (u.setFunction name entry) :=
    fun u _ _ => holds_noted u _
  split
  · exact (holds_addItem s _ _ _).then (changing_moves _ _ _ fun u =>
      (hset u _ _).then (openRoutine_moves _ _ _ _ _))
  · exact (holds_addItem s _ _ _).then (changing_moves _ _ _ fun u =>
      (hset u _ _).moves)

theorem endMethod_moves (colon : Bool) :
    Moves s (s.endMethod st colon).state := by
  refine reading_moves s _ fun head => ?_
  dsimp only
  split
  · exact (holds_addItem s _ _ _).then (openRoutine_moves _ _ _ _ _)
  · exact (holds_addItem s _ _ _).moves

theorem endOn_moves : Moves s (s.endOn st).state := by
  unfold State.endOn
  split
  · exact reading_moves s _ fun _ => (holds_addItem s _ _ _).moves
  · exact (Holds.refl s).moves

theorem openAccessor_moves (colon : Bool) :
    Moves s (s.openAccessor st colon) := by
  unfold State.openAccessor
  split
  · refine moves_openScope s ?_ _
    nofun
  · exact (Holds.refl s).moves

theorem endDefine_moves (colon : Bool) :
    Moves s (s.endDefine st colon).state := by
  refine reading_moves s _ fun defined => ?_
  cases defined with
  | nothing => exact (Holds.refl s).moves
  | buffer token name table temporary =>
      exact ((holds_noted s _).trans (holds_addItem _ _ _ _)).moves
  | event token name =>
      exact (holds_addItem s _ _ _).then (openAccessor_moves _ st colon)
  | definition token name d =>
      refine Holds.then ?_ (openAccessor_moves _ st colon)
      unfold State.addDefinition
      dsimp only
      split
      · exact (holds_noted s _).trans (holds_addItem _ _ _ _)
      · exact holds_addItem s _ _ _

theorem addItems_holds (content : Item.Content) (ts : List Token) :
    Holds s (ts.foldl (fun s t => s.addItem t.text t content) s) := by
  induction ts generalizing s with
  | nil => exact .refl s
  | cons t ts ih => exact (holds_addItem s _ _ _).trans (ih _)

theorem endLabel_holds : Holds s (s.endLabel env st).1 := by
  unfold State.endLabel
  split
  · split
    · exact (holds_addItem s _ _ _).trans (holds_noted _ _)
    · exact .refl s
  · exact .refl s

theorem endBlockHead_moves : Moves s (s.endBlockHead st).state := by
  refine reading_moves s _ fun opener => ?_
  dsimp only
  split
  · refine changing_moves s _ _ fun u => moves_openScope u ?_ opener
    nofun
  · refine (holds_noted s _).then (changing_moves _ _ _ fun u =>
      moves_openScope u ?_ opener)
    nofun

/-- The end line of an item changes neither the scopes nor the errors. -/
theorem changing_done_eq (item : Option ItemId) (f : Item → Item) :
    (s.changing item f State.done).state.nesting = s.nesting
      ∧ (s.changing item f State.done).state.findings.errors
        = s.findings.errors := by
  unfold State.changing
  cases item with
  | none => exact ⟨rfl, rfl⟩
  | some id =>
      unfold State.changeItem?
      dsimp only
      by_cases hid : id < s.findings.items.size
      · rw [if_pos hid]
        exact ⟨rfl, rfl⟩
      · rw [if_neg hid]
        exact ⟨rfl, rfl⟩

/-- What `END` does, where the file is open. -/
theorem endBlock_stops {stop : Token} (hf : FileOpen s.nesting.scopes)
    (hstop : st.first? = some stop) : Stops stop s (s.endBlock st).state := by
  have hopening : st.opening = .ok stop := by
    unfold Statement.opening
    rw [hstop]
  unfold State.endBlock State.reading
  rw [hopening]
  dsimp only
  obtain ⟨within, o, around, hs, hw, hcase⟩ := endBlock?_cases hf
  rcases hcase with ⟨ho, he⟩ | ⟨hpass, ho, he⟩
  · rw [he]
    dsimp only
    obtain ⟨hnesting, herrors⟩ := changing_done_eq
      (if State.isMismatched st (State.endedBy o.scope).1 = true then
        { s with nesting := ⟨within ++ around⟩ }.addErrorAt .mismatchedEnd stop
          (s.rootLine stop) s.nesting.depth
        else { s with nesting := ⟨within ++ around⟩ })
      (State.endedBy o.scope).2
      (fun i => { i with endLine := some (s.rootLine stop) })
    refine .closes within around o hs hw ho ?_ ?_
    · refine (congrArg Nesting.scopes hnesting).trans ?_
      cases State.isMismatched st (State.endedBy o.scope).1 <;> rfl
    · cases hm : State.isMismatched st (State.endedBy o.scope).1 with
      | false =>
          rw [hm] at herrors
          exact Or.inl herrors
      | true =>
          rw [hm] at herrors
          exact Or.inr herrors
  · rw [he]
    exact .refuses within around o hs hw (Bool.eq_false_iff.2 hpass)
      (Bool.eq_false_iff.2 ho) rfl rfl

theorem Stops.moves {stop : Token} {s s' : State} (h : Stops stop s s') :
    Moves s s' := by
  have hadds : ∀ {fault : StructureFault}, fault.isMissing = false →
      s'.findings.errors = s.findings.errors ++ [s.errorAt fault stop] →
      Adds s s' := by
    intro fault hfault he
    refine ⟨_, he, fun e hmem => ?_⟩
    rw [List.mem_singleton.1 hmem]
    exact hfault
  cases h with
  | closes within around o hs hw ho hs' he =>
      refine ⟨Or.inr ?_, he.elim .of_eq (hadds rfl)⟩
      rw [hs, hs']
      exact .closes .stop within around hw ho
  | refuses within around o hs hw hi ho hs' he =>
      exact ⟨Or.inl hs', hadds rfl he⟩

theorem endBlock_moves (hf : FileOpen s.nesting.scopes) :
    Moves s (s.endBlock st).state := by
  cases hfirst : st.first? with
  | some stop => exact (endBlock_stops s st hf hfirst).moves
  | none =>
      unfold State.endBlock State.reading Statement.opening
      rw [hfirst]
      exact (Holds.refl s).moves

/-- The end of a statement of any kind. -/
theorem endByKind_moves (hf : FileOpen s.nesting.scopes) (colon : Bool) :
    Moves s (s.endByKind env st colon).1.state := by
  unfold State.endByKind
  cases st.kind with
  | procedure =>
      exact reading_moves s _ fun _ =>
        (holds_addItem s _ _ _).then (openRoutine_moves _ _ _ _ _)
  | function => exact endFunction_moves s st colon
  | method => exact endMethod_moves s st colon
  | constructor => exact endMethod_moves s st colon
  | destructor => exact endMethod_moves s st colon
  | on => exact endOn_moves s st
  | run =>
      exact reading_moves s _ fun _ => (holds_addItem s _ _ _).moves
  | define => exact endDefine_moves s st colon
  | var => exact reading_moves s _ fun v => (addItems_holds s _ v.names).moves
  | close => exact endBlock_moves s st hf
  | block => exact endBlockHead_moves s st
  | accessor =>
      dsimp only
      split
      · exact endBlockHead_moves s st
      · exact (Holds.refl s).moves
  | other =>
      dsimp only
      split
      · exact (endLabel_holds env s st).moves
      · exact (Holds.refl s).moves

theorem endStatement_moves (hf : FileOpen s.nesting.scopes) (stop : Token) :
    Moves s (s.endStatement env st stop).state := by
  have hkind := endByKind_moves env (s.under st.trigger) st hf
    (stop.text == ":")
  exact ((holds_noted s _).then hkind).then (holds_noted _ _)

/-- The end of an `END` statement. -/
theorem endStatement_stops {stop : Token} (hf : FileOpen s.nesting.scopes)
    (hk : st.kind = .close) (hstop : st.first? = some stop) (t : Token) :
    Stops stop s (s.endStatement env st t).state := by
  have hend := endBlock_stops (s.under st.trigger) st hf hstop
  have hstate : ((s.under st.trigger).endByKind env st (t.text == ":")).1
      = (s.under st.trigger).endBlock st := by
    unfold State.endByKind
    rw [hk]
  unfold State.endStatement
  dsimp only
  rw [hstate]
  cases hend with
  | closes within around o hs hw ho hs' he =>
      exact .closes within around o hs hw ho hs' he
  | refuses within around o hs hw hi ho hs' he =>
      exact .refuses within around o hs hw hi ho hs' he

end Statements

-- ============================================================ directives

section Directives

variable {env : Environment} {steps : Nat} {s s' : State} {t : Token}
  {o : Outcome}

theorem moves_push (s : State) {scope : Scope} (h : scope.kind ≠ .file)
    (line : Nat) :
    Moves s { s with nesting := s.nesting.push scope line } :=
  ⟨Or.inr (.opens (o := ⟨scope, line⟩) _ h), .of_eq rfl⟩

theorem moves_turn (s : State) (active spent : Bool) :
    Moves s { s with nesting := s.nesting.turn active spent } := by
  refine ⟨?_, .of_eq rfl⟩
  rcases shift_turn (n := s.nesting) active spent with h | h
  · exact Or.inl (congrArg Nesting.scopes h)
  · exact Or.inr h

theorem openIf_moves (h : s.openIf env steps t = some s') : Moves s s' := by
  obtain ⟨⟨u, condition⟩, hu, he⟩ := Option.bind_eq_some_iff.1 h
  cases he
  refine (takeCondition_readsOn hu).holds.then (moves_push u ?_ _)
  nofun

theorem elseIf_moves (h : s.elseIf env steps t = some s') : Moves s s' := by
  unfold State.elseIf at h
  split at h
  · obtain ⟨⟨u, condition⟩, hu, rfl⟩ := Option.map_eq_some_iff.1 h
    exact ((takeCondition_readsOn hu).holds.trans
      (holds_addError u rfl t)).moves
  · obtain ⟨⟨u, condition⟩, hu, he⟩ := Option.bind_eq_some_iff.1 h
    cases he
    exact (takeCondition_readsOn hu).holds.then (moves_turn u _ _)

theorem otherwise_moves (s : State) (t : Token) : Moves s (s.otherwise t) := by
  unfold State.otherwise
  split
  · exact (holds_addError s rfl t).moves
  · exact moves_turn s _ _

theorem endIf_moves (s : State) (t : Token) : Moves s (s.endIf t) := by
  unfold State.endIf
  split
  · exact (holds_addError s rfl t).moves
  · rename_i n hn
    exact ⟨Or.inr (shift_endIf hn), .of_eq rfl⟩

/-- A name that is defined or undefined. -/
theorem named_holds (s : State) (source : Source) (name : String) (t : Token)
    (content : Item.Content) :
    Holds s ({ s with source }.addItem name t content) := .of_eq rfl rfl

theorem defineName_holds {isGlobal : Bool}
    (h : s.defineName env steps t isGlobal = some o) : Holds s o.state := by
  obtain ⟨⟨u, operands⟩, hu, h⟩ := Option.bind_eq_some_iff.1 h
  have hline := (takeLine_readsOn hu).holds
  dsimp only at h
  split at h
  · cases h
    exact hline
  · cases h
    exact hline.trans (named_holds u _ _ _ _)

theorem undefineName_holds (h : s.undefineName env steps t = some o) :
    Holds s o.state := by
  obtain ⟨⟨u, operands⟩, hu, h⟩ := Option.bind_eq_some_iff.1 h
  have hline := (takeLine_readsOn hu).holds
  dsimp only at h
  split at h
  · cases h
    exact hline
  · cases h
    exact hline.trans (named_holds u _ _ _ _)

theorem openSection_moves (h : s.openSection env steps t = some s') :
    Moves s s' := by
  obtain ⟨⟨u, operands⟩, hu, h⟩ := Option.bind_eq_some_iff.1 h
  cases h
  refine (takeLine_readsOn hu).holds.then
    ((holds_addItem u _ _ _).then (moves_openScope _ ?_ t))
  nofun

theorem endSection_resumes (h : s.endSection env steps t = some o) :
    Resumes t s o.state := by
  obtain ⟨⟨u, operands⟩, hu, h⟩ := Option.bind_eq_some_iff.1 h
  obtain rfl := takeLine_unexpanded hu
  dsimp only at h
  rcases endSection?_cases (s.skipping operands).nesting with
    ⟨within, p, around, hs, hw, hp, he⟩ | ⟨hnone, he⟩
  · rw [he] at h
    have hitem : ∃ item, p.scope.item? = some item := by
      have htakes : p.scope.isSuspended = true := hp
      cases hscope : p.scope with
      | suspended item opener => exact ⟨item, rfl⟩
      | file item => rw [hscope] at htakes; cases htakes
      | routine item kind keyword opener => rw [hscope] at htakes; cases htakes
      | conditional opener active taken => rw [hscope] at htakes; cases htakes
      | block opener keyword label => rw [hscope] at htakes; cases htakes
    obtain ⟨item, hitem⟩ := hitem
    dsimp only at h
    rw [hitem] at h
    dsimp only at h
    refine .closes within around p hs hw hp ?_ ?_
    · split at h
      · rename_i v hv
        cases h
        unfold State.setEndLine? State.changeItem? at hv
        split at hv
        · cases hv
          rfl
        · cases hv
      · cases h
        rfl
    · split at h
      · rename_i v hv
        cases h
        unfold State.setEndLine? State.changeItem? at hv
        split at hv
        · cases hv
          rfl
        · cases hv
      · cases h
        rfl
  · rw [he] at h
    cases h
    exact .refuses (fun x hx => Bool.eq_false_iff.2 (hnone x hx)) rfl rfl

theorem Resumes.moves (h : Resumes t s s') : Moves s s' := by
  cases h with
  | closes within around p hs hw hp hs' he =>
      refine ⟨Or.inr ?_, .of_eq he⟩
      rw [hs, hs']
      exact .closes .resume within around hw hp
  | refuses hs hs' he =>
      refine ⟨Or.inl hs', _, he, fun e hmem => ?_⟩
      rw [List.mem_singleton.1 hmem]
      rfl

theorem directive_moves (h : s.directive env steps t = some o) :
    Moves s o.state := by
  have hfaultless : ∀ {result : Option State} {o : Outcome},
      result.map (fun s => ({ state := s } : Outcome)) = some o →
      (∀ u, result = some u → Moves s u) → Moves s o.state := by
    intro result o h hr
    obtain ⟨u, hu, rfl⟩ := Option.map_eq_some_iff.1 h
    exact hr u hu
  have hline : ∀ u, (s.takeLine env steps false).map (·.1) = some u →
      Moves s u := by
    intro u hu
    obtain ⟨⟨v, operands⟩, hv, rfl⟩ := Option.map_eq_some_iff.1 hu
    exact (takeLine_readsOn hv).holds.moves
  unfold State.directive at h
  dsimp only at h
  cases hd : Preprocess.Directive.ofWord t.text with
  | ifThen => rw [hd] at h; exact hfaultless h fun u hu => openIf_moves hu
  | elseIf => rw [hd] at h; exact hfaultless h fun u hu => elseIf_moves hu
  | otherwise => rw [hd] at h; cases h; exact otherwise_moves s t
  | endIf => rw [hd] at h; cases h; exact endIf_moves s t
  | thenPart => rw [hd] at h; cases h; exact (Holds.refl s).moves
  | other => rw [hd] at h; cases h; exact (Holds.refl s).moves
  | globalDefine =>
      rw [hd] at h
      dsimp only at h
      split at h
      · exact hfaultless h hline
      · exact (defineName_holds h).moves
  | scopedDefine =>
      rw [hd] at h
      dsimp only at h
      split at h
      · exact hfaultless h hline
      · exact (defineName_holds h).moves
  | undefine =>
      rw [hd] at h
      dsimp only at h
      split at h
      · exact hfaultless h hline
      · exact (undefineName_holds h).moves
  | analyzeSuspend =>
      rw [hd] at h
      dsimp only at h
      split at h
      · exact hfaultless h hline
      · exact hfaultless h fun u hu => openSection_moves hu
  | analyzeResume =>
      rw [hd] at h
      dsimp only at h
      split at h
      · exact hfaultless h hline
      · exact (endSection_resumes h).moves
  | message =>
      rw [hd] at h
      dsimp only at h
      split at h
      · exact hfaultless h hline
      · exact hfaultless h hline

end Directives

-- ================================================================= steps

section Steps

variable {env : Environment} {steps : Nat} {s s' : State} {t : Token}
  {o : Outcome}

theorem observe_holds (s : State) (t : Token) (skipped : Bool) :
    Holds s (s.observe t skipped).2 := by
  unfold State.observe
  split
  · exact .of_eq rfl rfl
  · split
    · exact .refl s
    · unfold State.stopStatement
      dsimp only
      split <;> exact .of_eq rfl rfl
  · exact .refl s

theorem look_moves {ended : Option Statement} (hf : FileOpen s.nesting.scopes)
    (h : s.look env steps t ended = some o) : Moves s o.state := by
  have hspace : Holds s s.space := holds_noted s _
  unfold State.look at h
  split at h
  · cases h
    exact (Holds.refl s).moves
  · split at h
    · exact directive_moves h
    · split at h
      · cases h
        exact (Holds.refl s).moves
      · split at h
        · cases h
          exact hspace.moves
        · cases h
          exact hspace.moves
        · cases h
          exact hspace.moves
        · split at h
          · cases h
            exact hspace.then (endStatement_moves env s.space _ hf t)
          · cases h
            exact hspace.moves
        · cases h
          exact (Holds.refl s).moves
        · cases h
          exact (Holds.refl s).moves
        · cases h
          exact (Holds.refl s).moves
        · cases h
          have hread := Learns.readToken env s t
          exact ((holds_noted s _).trans
            (.of_eq hread.nesting hread.errors)).moves

/-- A step makes one move at most. -/
theorem step_moves (hf : FileOpen s.nesting.scopes)
    (h : s.step env steps t = some s') : Moves s s' := by
  rcases step_cases h with ⟨-, u, rfl, rfl⟩ | ⟨-, o, hl, rfl⟩
  · exact ((observe_holds s t true).trans
      (ReadsOn.trans (.source _ _) (expandNext_readsOn env _)).holds).moves
  · have hobserve := observe_holds s t false
    have hlook := look_moves (hobserve.scopes ▸ hf) hl
    exact (hobserve.then hlook).then (expandNext_readsOn env _).holds

/-- The source, the open scopes and the errors are the same. -/
structure SameScene (s s' : State) : Prop where
  source : s'.source = s.source
  nesting : s'.nesting = s.nesting
  errors : s'.findings.errors = s.findings.errors

theorem SameScene.errorAt (h : SameScene s s') (fault : StructureFault)
    (t : Token) : s'.errorAt fault t = s.errorAt fault t := by
  unfold State.errorAt State.rootLine
  rw [h.source, h.nesting]

/-- What `END` does, seen from a state of the same scene, and up to what is
expanded next. -/
theorem Stops.within {u u' : State} {stop : Token} (h : Stops stop u u')
    (hu : SameScene s u) (hu' : ReadsOn u' s') : Stops stop s s' := by
  cases h with
  | closes within around p hs hw hp hs' he =>
      refine .closes within around p (hu.nesting ▸ hs) hw hp ?_ ?_
      · rw [hu'.nesting, hs']
      · rw [hu'.errors, ← hu.errors, ← hu.errorAt]
        exact he
  | refuses within around p hs hw hi hp hs' he =>
      refine .refuses within around p (hu.nesting ▸ hs) hw hi hp ?_ ?_
      · rw [hu'.nesting, hs', hu.nesting]
      · rw [hu'.errors, he, hu.errors, hu.errorAt]

theorem not_isEmpty_of_first {st : Statement} (h : st.first? = some t) :
    st.isEmpty = false := by
  unfold Statement.isEmpty
  obtain ⟨kind, parts, trigger⟩ := st
  cases parts with
  | nil => cases h
  | cons p parts => rfl

/-- A token that ends an `END` statement where it is looked at. -/
theorem step_stops (hs : Sound s) (h : s.step env steps t = some s')
    (hskip : s.source.skip = 0) (hk : t.kind = .eos)
    (hlive : s.inFalseBranch = false)
    (hc : s.analysis.statement.kind = .close) {stop : Token}
    (hstop : s.analysis.statement.first? = some stop) : Stops stop s s' := by
  obtain ⟨u, hu, hscene⟩ : ∃ u, s.observe t false
      = (some s.analysis.statement, u) ∧ SameScene s u := by
    refine ⟨{ s with analysis :=
      { s.analysis with statement := {}, restart := false } }, ?_,
      rfl, rfl, rfl⟩
    unfold State.observe State.stopStatement State.takeStatement
    rw [hk]
    dsimp only
    rw [not_isEmpty_of_first hstop, Bool.false_or]
    exact if_neg (ne_true_of_eq_false hlive)
  have hdepth : u.nesting.depth ≠ 0 := hscene.nesting ▸ hs.depth_ne_zero
  have hlive' : u.inFalseBranch = false := by
    unfold State.inFalseBranch
    rw [hscene.nesting]
    exact hlive
  rcases step_cases h with ⟨hlt, -⟩ | ⟨-, o, hl, rfl⟩
  · rw [hskip] at hlt
    exact absurd hlt (Nat.lt_irrefl 0)
  · rw [hu] at hl
    unfold State.look at hl
    rw [if_neg hdepth, hk] at hl
    dsimp only at hl
    rw [hlive'] at hl
    cases hl
    have hfile : FileOpen u.space.nesting.scopes := hscene.nesting ▸ hs.file
    exact (endStatement_stops env u.space _ hfile hc hstop t).within
      ⟨hscene.source, hscene.nesting, hscene.errors⟩
      (expandNext_readsOn env _)

/-- `&ANALYZE-RESUME` where it is looked at. -/
theorem step_resumes (hs : Sound s) (h : s.step env steps t = some s')
    (hskip : s.source.skip = 0) (hk : t.kind = .directive)
    (hd : Preprocess.Directive.ofWord t.text = .analyzeResume)
    (hlive : s.inFalseBranch = false) : Resumes t s s' := by
  obtain ⟨o, ho, rfl⟩ := step_directive hs h hskip hk
  have hnext := expandNext_readsOn env o.state
  unfold State.directive at ho
  dsimp only at ho
  rw [hd] at ho
  dsimp only at ho
  rw [hlive, if_neg Bool.false_ne_true] at ho
  cases endSection_resumes ho with
  | closes within around p hscopes hw hp hs' he =>
      exact .closes within around p hscopes hw hp (by rw [hnext.nesting, hs'])
        (by rw [hnext.errors, he])
  | refuses hnone hs' he =>
      exact .refuses hnone (by rw [hnext.nesting, hs'])
        (by rw [hnext.errors, he])

/-- The last statement makes one move at most. -/
theorem endLast_moves (hf : FileOpen s.nesting.scopes) (eof : Token) :
    Moves s (s.endLast env eof) := by
  have htake : Holds s s.takeStatement.2 := holds_noted s _
  unfold State.endLast
  dsimp only
  split
  · exact htake.moves
  · exact htake.then (endStatement_moves env s.takeStatement.2 _ hf eof)

/-- An `END` statement that the end of the tokens ends. -/
theorem endLast_stops (hf : FileOpen s.nesting.scopes)
    (hlive : s.inFalseBranch = false)
    (hc : s.analysis.statement.kind = .close) {stop : Token}
    (hstop : s.analysis.statement.first? = some stop) (eof : Token) :
    Stops stop s (s.endLast env eof) := by
  have hlive' : s.takeStatement.2.inFalseBranch = false := hlive
  unfold State.endLast
  dsimp only
  have hempty : s.takeStatement.1.isEmpty = false :=
    not_isEmpty_of_first hstop
  rw [hempty, hlive', if_neg (by decide)]
  exact (endStatement_stops env s.takeStatement.2 _ hf hc hstop eof).within
    ⟨rfl, rfl, rfl⟩ (.refl _)

end Steps

end Parse

end AblOutline
