/-
The depths that errors are told with. An error that a token of a statement, or
its end, adds tells how many scopes were open before (`Tells`), and those that
are added when the scopes are left count down to two. So two parses that find
the same faults, with as many scopes open all along, tell them with the same
depths.
-/
import AblOutline.Proofs.Masked.Beside
import AblOutline.Proofs.Scopes

namespace AblOutline.Parse

-- ================================================================= tells

/-- Errors are added, each with the number of scopes that were open before. -/
def Tells (s s' : State) : Prop :=
  ∃ more, s'.findings.errors = s.findings.errors ++ more
    ∧ ∀ e ∈ more, e.depth = s.nesting.depth

/-- The open scopes and the errors are the same. -/
structure Still (s s' : State) : Prop where
  nesting : s'.nesting = s.nesting
  errors : s'.findings.errors = s.findings.errors

section Tells

variable {s s' u : State} {st : Statement}

theorem Tells.of_eq (h : s'.findings.errors = s.findings.errors) : Tells s s' :=
  ⟨[], by rw [h, List.append_nil], List.forall_mem_nil _⟩

theorem Still.tells (h : Still s s') : Tells s s' := .of_eq h.errors

/-- What stays as it is before does not count. -/
theorem Still.then (h : Still s u) (h' : Tells u s') : Tells s s' := by
  obtain ⟨more, he, hm⟩ := h'
  exact ⟨more, by rw [he, h.errors], fun e hmem => by rw [hm e hmem, h.nesting]⟩

/-- Nor does what adds no error after. -/
theorem Tells.then (h : Tells s u)
    (he : s'.findings.errors = u.findings.errors) : Tells s s' := by
  obtain ⟨more, hmore, hm⟩ := h
  exact ⟨more, he.trans hmore, hm⟩

/-- The same faults are told, with as many scopes open: the depths are the
same. -/
theorem Tells.depths {v v' : State} (h : Tells s u) (h' : Tells v v')
    (hbefore : s.findings.errors.map (·.depth) = v.findings.errors.map (·.depth))
    (hafter : u.findings.errors.length = v'.findings.errors.length)
    (hdepth : s.nesting.depth = v.nesting.depth) :
    u.findings.errors.map (·.depth) = v'.findings.errors.map (·.depth) := by
  obtain ⟨more, he, hm⟩ := h
  obtain ⟨more', he', hm'⟩ := h'
  have hlength := congrArg List.length hbefore
  rw [List.length_map, List.length_map] at hlength
  rw [he, he', List.length_append, List.length_append, hlength] at hafter
  have hall : ∀ {d : Nat} {es : List StructureError},
      (∀ e ∈ es, e.depth = d) → es.map (·.depth) = List.replicate es.length d :=
    fun hes => List.map_eq_replicate_iff.2 hes
  rw [he, he', List.map_append, List.map_append, hbefore, hall hm, hall hm',
    Nat.add_left_cancel hafter, hdepth]

-- ============================================================ statements

variable (s)

theorem still_items (items : Array Item) :
    Still s { s with findings := { s.findings with items } } := ⟨rfl, rfl⟩

theorem still_addItem (name : String) (t : Token) (content : Item.Content) :
    Still s (s.addItem name t content) := ⟨rfl, rfl⟩

theorem still_noted (a : Analysis) : Still s { s with analysis := a } :=
  ⟨rfl, rfl⟩

theorem reading_tells {α : Type} (read : Except AnalysisFault α)
    {work : α → Outcome} (h : ∀ a, Tells s (work a).state) :
    Tells s (s.reading read work).state := by
  unfold State.reading
  cases read with
  | ok a => exact h a
  | error fault => exact .of_eq rfl

/-- Work that goes on after a change of one item. -/
theorem changing_tells (item : Option ItemId) (f : Item → Item)
    {next : State → Outcome} (h : ∀ u, Tells u (next u).state) :
    Tells s (s.changing item f next).state := by
  unfold State.changing
  cases item with
  | none => exact h s
  | some id =>
      unfold State.changeItem?
      dsimp only
      by_cases hid : id < s.findings.items.size
      · rw [if_pos hid]
        exact (still_items s _).then (h _)
      · rw [if_neg hid]
        exact .of_eq rfl

theorem openRoutine_tells (item : ItemId) (kind : RoutineKind)
    (keyword : String) (opener : Token) :
    Tells s (s.openRoutine item kind keyword opener) := by
  unfold State.openRoutine
  dsimp only
  split
  · refine ⟨[s.errorAt .nestedRoutine opener], rfl, fun e he => ?_⟩
    rw [List.mem_singleton.1 he]
    rfl
  · exact .of_eq rfl

theorem endFunction_tells (colon : Bool) :
    Tells s (s.endFunction st colon).state := by
  refine reading_tells s _ fun head => ?_
  have hset : ∀ (u : State) name entry, Still u (u.setFunction name entry) :=
    fun u _ _ => still_noted u _
  split
  · exact (still_addItem s _ _ _).then (changing_tells _ _ _ fun u =>
      (hset u _ _).then (openRoutine_tells _ _ _ _ _))
  · exact (still_addItem s _ _ _).then (changing_tells _ _ _ fun u =>
      (hset u _ _).tells)

theorem endMethod_tells (colon : Bool) :
    Tells s (s.endMethod st colon).state := by
  refine reading_tells s _ fun head => ?_
  dsimp only
  split
  · exact (still_addItem s _ _ _).then (openRoutine_tells _ _ _ _ _)
  · exact (still_addItem s _ _ _).tells

theorem endOn_tells : Tells s (s.endOn st).state := by
  unfold State.endOn
  split
  · exact reading_tells s _ fun _ => (still_addItem s _ _ _).tells
  · exact .of_eq rfl

theorem openAccessor_errors (colon : Bool) :
    (s.openAccessor st colon).findings.errors = s.findings.errors := by
  unfold State.openAccessor
  split <;> rfl

theorem endDefine_tells (colon : Bool) :
    Tells s (s.endDefine st colon).state := by
  refine reading_tells s _ fun defined => ?_
  cases defined with
  | nothing => exact .of_eq rfl
  | buffer token name table temporary => exact .of_eq rfl
  | event token name => exact .of_eq (openAccessor_errors _ colon)
  | definition token name d =>
      refine .of_eq ((openAccessor_errors _ colon).trans ?_)
      unfold State.addDefinition
      dsimp only
      split <;> rfl

theorem addItems_errors (content : Item.Content) (ts : List Token) :
    (ts.foldl (fun s t => s.addItem t.text t content) s).findings.errors
      = s.findings.errors := by
  induction ts generalizing s with
  | nil => rfl
  | cons t ts ih => exact ih _

theorem endLabel_errors (env : Environment) :
    (s.endLabel env st).1.findings.errors = s.findings.errors := by
  unfold State.endLabel
  split
  · split <;> rfl
  · rfl

theorem endBlockHead_tells : Tells s (s.endBlockHead st).state := by
  refine reading_tells s _ fun opener => ?_
  dsimp only
  split
  · exact changing_tells s _ _ fun u => .of_eq rfl
  · exact (still_noted s _).then (changing_tells _ _ _ fun u => .of_eq rfl)

theorem endBlock_tells (hf : FileOpen s.nesting.scopes) :
    Tells s (s.endBlock st).state := by
  have hone : ∀ {fault : StructureFault} {stop : Token},
      (s.endBlock st).state.findings.errors
        = s.findings.errors ++ [s.errorAt fault stop] →
      Tells s (s.endBlock st).state := by
    intro fault stop he
    refine ⟨_, he, fun e hmem => ?_⟩
    rw [List.mem_singleton.1 hmem]
    rfl
  cases hfirst : st.first? with
  | some stop =>
      cases endBlock_stops s st hf hfirst with
      | closes within around o hs hw ho hs' he => exact he.elim .of_eq hone
      | refuses within around o hs hw hi ho hs' he => exact hone he
  | none =>
      unfold State.endBlock State.reading Statement.opening
      rw [hfirst]
      exact .of_eq rfl

/-- The end of a statement of any kind. -/
theorem endByKind_tells (env : Environment) (hf : FileOpen s.nesting.scopes)
    (colon : Bool) : Tells s (s.endByKind env st colon).1.state := by
  unfold State.endByKind
  cases st.kind with
  | procedure =>
      exact reading_tells s _ fun _ =>
        (still_addItem s _ _ _).then (openRoutine_tells _ _ _ _ _)
  | function => exact endFunction_tells s colon
  | method => exact endMethod_tells s colon
  | constructor => exact endMethod_tells s colon
  | destructor => exact endMethod_tells s colon
  | on => exact endOn_tells s
  | run =>
      exact reading_tells s _ fun _ => (still_addItem s _ _ _).tells
  | define => exact endDefine_tells s colon
  | var => exact reading_tells s _ fun v => .of_eq (addItems_errors s _ v.names)
  | close => exact endBlock_tells s hf
  | block => exact endBlockHead_tells s
  | accessor =>
      dsimp only
      split
      · exact endBlockHead_tells s
      · exact .of_eq rfl
  | other =>
      dsimp only
      split
      · exact .of_eq (endLabel_errors s env)
      · exact .of_eq rfl

theorem endStatement_tells (env : Environment)
    (hf : FileOpen s.nesting.scopes) (stop : Token) :
    Tells s (s.endStatement env st stop).state := by
  have hkind : Tells (s.under st.trigger)
      ((s.under st.trigger).endByKind env st (stop.text == ":")).1.state :=
    endByKind_tells (s.under st.trigger) env hf _
  exact ((still_noted s _).then hkind).then rfl

variable {s}

-- ================================================================ tokens

/-- A token of a statement, or its end. -/
theorem taken_tells (env : Environment) (hs : Sound s) (t : Token) :
    Tells s (s.taken env t) := by
  unfold State.taken
  split
  · have hstate := stopStatement_state s
    unfold State.stopped
    generalize s.stopStatement = stop at hstate
    obtain ⟨_ | statement, u⟩ := stop
    · cases hstate
      exact .of_eq rfl
    · cases hstate
      have hstill : Still s s.calmed.space := ⟨rfl, rfl⟩
      exact hstill.then (endStatement_tells s.calmed.space env hs.file t)
  · exact .of_eq (Learns.readToken env s t).errors

/-- The last statement. -/
theorem endLast_tells (env : Environment) (hs : Sound s) (eof : Token) :
    Tells s (s.endLast env eof) := by
  have htake : Still s s.takeStatement.2 := still_noted s _
  unfold State.endLast
  dsimp only
  split
  · exact htake.tells
  · exact htake.then (endStatement_tells s.takeStatement.2 env hs.file eof)

/-- All scopes are left, the innermost first. -/
theorem leaveAll_depths (line : Nat) (hs : Sound s) :
    (s.leaveAll line s.nesting.scopes).findings.errors.map (·.depth)
      = s.findings.errors.map (·.depth)
        ++ (List.range' 2 (s.nesting.depth - 1)).reverse := by
  obtain ⟨inner, opened, hfile, hinner⟩ := hs.file
  obtain ⟨missing, herrors, -, hdepths⟩ :=
    misses_leaveAll line s 0 opened hinner
  unfold Nesting.depth
  rw [hfile, herrors, List.map_append, hdepths, List.length_append]
  rfl

end Tells

end AblOutline.Parse
