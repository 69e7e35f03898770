/-
What the parts of a statement leave alone. The end of a statement (`Rests`)
leaves the source and the record of lines as they were, the statement to be
read next, and whether a gap stands before it; so where a statement has ended,
none is being read. A token of a statement (`Learns`) finds items and teaches
names, but leaves the source, the open scopes, the errors and the record of
lines.
-/
import AblOutline.Proofs.Change.Statements

namespace AblOutline.Parse

-- =================================================================== ends

/-- The source and the statement being read stay as they were. -/
structure Rests (s s' : State) : Prop where
  source : s'.source = s.source
  lines : s'.findings.lines = s.findings.lines
  statement : s'.analysis.statement = s.analysis.statement
  restart : s'.analysis.restart = s.analysis.restart
  spaced : s'.analysis.spaced = s.analysis.spaced

namespace Rests

variable {s s' s'' : State} {st : Statement}

theorem refl (s : State) : Rests s s := ⟨rfl, rfl, rfl, rfl, rfl⟩

theorem trans (h : Rests s s') (h' : Rests s' s'') : Rests s s'' :=
  ⟨h'.source.trans h.source, h'.lines.trans h.lines,
    h'.statement.trans h.statement, h'.restart.trans h.restart,
    h'.spaced.trans h.spaced⟩

variable (s)

theorem addItem (name : String) (t : Token) (content : Item.Content) :
    Rests s (s.addItem name t content) := ⟨rfl, rfl, rfl, rfl, rfl⟩

theorem openScope (scope : Scope) (t : Token) : Rests s (s.openScope scope t) :=
  ⟨rfl, rfl, rfl, rfl, rfl⟩

theorem addErrorAt (fault : StructureFault) (t : Token) (line depth : Nat) :
    Rests s (s.addErrorAt fault t line depth) := ⟨rfl, rfl, rfl, rfl, rfl⟩

theorem setFunction (name : String) (entry : FunctionEntry) :
    Rests s (s.setFunction name entry) := ⟨rfl, rfl, rfl, rfl, rfl⟩

theorem reading {α : Type} (read : Except AnalysisFault α) {work : α → Outcome}
    (h : ∀ a, Rests s (work a).state) : Rests s (s.reading read work).state := by
  unfold State.reading
  cases read with
  | error fault => exact refl s
  | ok a => exact h a

variable {s}

theorem changing (h : Rests s s') (item : Option ItemId) (f : Item → Item)
    {next : State → Outcome} (hnext : ∀ u, Rests u (next u).state) :
    Rests s (s'.changing item f next).state := by
  unfold State.changing
  cases item with
  | none => exact h.trans (hnext s')
  | some id =>
      unfold State.changeItem?
      dsimp only
      by_cases hid : id < s'.findings.items.size
      · rw [if_pos hid]
        refine h.trans (trans ?_ (hnext _))
        exact ⟨rfl, rfl, rfl, rfl, rfl⟩
      · rw [if_neg hid]
        exact h

variable (s)

-- ============================================================= statements

theorem openRoutine (item : ItemId) (kind : RoutineKind) (keyword : String)
    (t : Token) : Rests s (s.openRoutine item kind keyword t) := by
  unfold State.openRoutine
  dsimp only
  split
  · exact (addErrorAt s _ t _ _).trans (openScope _ _ t)
  · exact openScope s _ t

theorem endProcedure : Rests s (s.endProcedure st).state :=
  reading s _ fun head =>
    (addItem s _ head.nameToken _).trans (openRoutine _ _ _ _ head.opener)

theorem endFunction (colon : Bool) : Rests s (s.endFunction st colon).state := by
  refine reading s _ fun head => ?_
  split
  · exact (addItem s _ head.nameToken _).changing _ _ fun u =>
      (setFunction u _ _).trans (openRoutine _ _ _ _ head.opener)
  · exact (addItem s _ head.nameToken _).changing _ _ fun u =>
      setFunction u _ _

theorem endMethod (colon : Bool) : Rests s (s.endMethod st colon).state := by
  refine reading s _ fun head => ?_
  have hadd := addItem s head.name head.nameToken (.method head.method)
  dsimp only
  split
  · exact hadd.trans (openRoutine _ _ _ _ head.opener)
  · exact hadd

theorem endOn : Rests s (s.endOn st).state := by
  unfold State.endOn
  split
  · exact reading s _ fun first => addItem s _ first _
  · exact refl s

theorem openAccessor (colon : Bool) : Rests s (s.openAccessor st colon) := by
  unfold State.openAccessor
  split
  · exact openScope s _ _
  · exact refl s

theorem endDefine (colon : Bool) : Rests s (s.endDefine st colon).state := by
  refine reading s _ fun defined => ?_
  cases defined with
  | nothing => exact refl s
  | buffer token name table temporary => exact ⟨rfl, rfl, rfl, rfl, rfl⟩
  | event token name =>
      exact (addItem s name token .event).trans (openAccessor _ colon)
  | definition token name d =>
      refine trans ?_ (openAccessor _ colon)
      unfold State.addDefinition
      dsimp only
      split <;> exact ⟨rfl, rfl, rfl, rfl, rfl⟩

theorem addItems (content : Item.Content) (ts : List Token) :
    Rests s (ts.foldl (fun s t => s.addItem t.text t content) s) := by
  induction ts generalizing s with
  | nil => exact refl s
  | cons t ts ih => exact (addItem s t.text t content).trans (ih _)

theorem endLabel (env : Environment) : Rests s (s.endLabel env st).1 := by
  unfold State.endLabel
  split
  · split
    · exact ⟨rfl, rfl, rfl, rfl, rfl⟩
    · exact refl s
  · exact refl s

theorem endBlockHead : Rests s (s.endBlockHead st).state := by
  refine reading s _ fun opener => ?_
  dsimp only
  split
  · exact (refl s).changing _ _ fun u => openScope u _ opener
  · refine changing ?_ _ _ fun u => openScope u _ opener
    exact ⟨rfl, rfl, rfl, rfl, rfl⟩

theorem endBlock : Rests s (s.endBlock st).state := by
  refine reading s _ fun stop => ?_
  split
  · exact addErrorAt s _ stop _ _
  · rename_i scope nesting _
    dsimp only
    have hclosed : Rests s { s with nesting } := ⟨rfl, rfl, rfl, rfl, rfl⟩
    split
    · exact (hclosed.trans (addErrorAt _ _ stop _ _)).changing _ _ refl
    · exact hclosed.changing _ _ refl

theorem endByKind (env : Environment) (colon : Bool) :
    Rests s (s.endByKind env st colon).1.state := by
  unfold State.endByKind
  cases st.kind with
  | procedure => exact endProcedure s
  | function => exact endFunction s colon
  | method => exact endMethod s colon
  | constructor => exact endMethod s colon
  | destructor => exact endMethod s colon
  | on => exact endOn s
  | run => exact reading s _ fun head => addItem s _ head.targetToken _
  | define => exact endDefine s colon
  | var => exact reading s _ fun v => addItems s _ v.names
  | close => exact endBlock s
  | block => exact endBlockHead s
  | accessor =>
      cases colon with
      | false => exact refl s
      | true => exact endBlockHead s
  | other =>
      cases colon with
      | false => exact refl s
      | true => exact endLabel s env

/-- The end of a statement. -/
theorem endStatement (env : Environment) (st : Statement) (stop : Token) :
    Rests s (s.endStatement env st stop).state := by
  have hkind : Rests (s.under st.trigger)
      ((s.under st.trigger).endByKind env st (stop.text == ":")).1.state :=
    endByKind _ env _
  obtain ⟨hsource, hlines, hstatement, hrestart, hspaced⟩ := hkind
  refine ⟨hsource, hlines, ?_, hrestart, hspaced⟩
  have hunder : ∀ (u : State) trigger, (u.under trigger).analysis.statement
      = { u.analysis.statement with trigger } := fun _ _ => rfl
  unfold State.endStatement
  dsimp only
  rw [hunder, hstatement, hunder]

end Rests

-- ================================================================== words

/-- Only items are found and names learned. -/
structure Learns (s s' : State) : Prop where
  source : s'.source = s.source
  nesting : s'.nesting = s.nesting
  lines : s'.findings.lines = s.findings.lines
  errors : s'.findings.errors = s.findings.errors
  spaced : s'.analysis.spaced = s.analysis.spaced

namespace Learns

variable {s s' s'' : State}

theorem refl (s : State) : Learns s s := ⟨rfl, rfl, rfl, rfl, rfl⟩

theorem trans (h : Learns s s') (h' : Learns s' s'') : Learns s s'' :=
  ⟨h'.source.trans h.source, h'.nesting.trans h.nesting,
    h'.lines.trans h.lines, h'.errors.trans h.errors,
    h'.spaced.trans h.spaced⟩

variable (env : Environment) (s : State) (t : Token)

theorem useTable (table : String) (temporary : Bool) :
    Learns s (s.useTable t table temporary) := by
  unfold State.useTable
  dsimp only
  split
  · exact refl s
  · exact ⟨rfl, rfl, rfl, rfl, rfl⟩

theorem addUnknown : Learns s (s.addUnknown t) := by
  unfold State.addUnknown
  dsimp only
  split
  · exact refl s
  · exact ⟨rfl, rfl, rfl, rfl, rfl⟩

theorem useNames : Learns s (s.useNames env t) := by
  have table : ∀ use : Option (String × Bool),
      Learns s (use.elim s fun use => s.useTable t use.1 use.2) := by
    intro use
    cases use with
    | none => exact refl s
    | some use => exact useTable s t use.1 use.2
  rw [State.useNames_eq]
  dsimp only
  split
  · exact (table _).trans (addUnknown _ t)
  · exact table _

theorem lookAtWord (spaced : Bool) :
    Learns s (s.lookAtWord env t spaced) := by
  unfold State.lookAtWord
  split
  · exact ⟨rfl, rfl, rfl, rfl, rfl⟩
  · split
    · split
      · exact ⟨rfl, rfl, rfl, rfl, rfl⟩
      · exact refl s
    · split
      · exact ⟨rfl, rfl, rfl, rfl, rfl⟩
      · exact useNames env s t

theorem beginAtWord : Learns s (s.beginAtWord t) := by
  unfold State.beginAtWord
  dsimp only
  split
  · exact ⟨rfl, rfl, rfl, rfl, rfl⟩
  · split
    · exact ⟨rfl, rfl, rfl, rfl, rfl⟩
    · split
      · exact ⟨rfl, rfl, rfl, rfl, rfl⟩
      · exact refl s

/-- A token of a statement, where it is forgotten that a gap stands before
it. -/
theorem readToken : Learns { s with analysis :=
    { s.analysis with spaced := false } } (s.readToken env t) := by
  have hrestart : ∀ (u : State) (restart : Bool),
      Learns u { u with analysis := { u.analysis with restart } } :=
    fun _ _ => ⟨rfl, rfl, rfl, rfl, rfl⟩
  have hpart : ∀ (u : State) (p : Part), Learns u (u.addPart p) :=
    fun _ _ => ⟨rfl, rfl, rfl, rfl, rfl⟩
  unfold State.readToken
  dsimp only
  refine trans ?_ (hpart _ _)
  split
  · exact (beginAtWord _ t).trans
      ((hrestart _ _).trans (lookAtWord env _ t _))
  · exact refl _

end Learns

end AblOutline.Parse
