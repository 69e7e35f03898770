/-
The lines of what is found. An item counts for the line of its token, and its
block ends on a line that is not above it. What makes this so is when a block
can be ended:

    PROCEDURE p:     p is found and its block opened
    ...
    END              the block is ended on the line of this token

Blocks are opened where statements end. So between two such places the items of
open blocks count for lines up to some line `since`, and the statement being
read, which may be an `END`, stands from there on. An editor section is opened
and ended by directives, and these are read one by one; the line of the one
being read is `now`.

`Dated` says this, and that nothing that is found counts for a line below
`last`. The end of a statement and each of its words keep it
(`Dated.endStatement`, `Dated.readToken`).
-/
import AblOutline.Proofs.Inclusion.Marks
import AblOutline.Proofs.RootLines.Stream

namespace AblOutline

-- ================================================================= lines

/-- The lines that an item stands for: that of its token, and the one that its
block ends on, where it has one that was ended. -/
structure LineRange where
  first : Nat
  final : Option Nat
deriving DecidableEq, Repr

def Item.range (i : Item) : LineRange := ⟨i.rootLine, i.endLine⟩

/-- The block ends where the item begins or below, and not below `last`. -/
structure LineRange.Fits (last : Nat) (r : LineRange) : Prop where
  first : r.first ≤ last
  final : ∀ line, r.final = some line → r.first ≤ line ∧ line ≤ last

/-- The item of that number is there, and counts for no line below `line`. -/
def Begun (ranges : List LineRange) (id : ItemId) (line : Nat) : Prop :=
  ∃ r, ranges[id]? = some r ∧ r.first ≤ line

namespace Begun

variable {ranges : List LineRange} {id : ItemId} {line line' : Nat}

theorem weaken (h : Begun ranges id line) (hle : line ≤ line') :
    Begun ranges id line' := by
  obtain ⟨r, hr, hfirst⟩ := h
  exact ⟨r, hr, hfirst.trans hle⟩

theorem append (h : Begun ranges id line) (new : List LineRange) :
    Begun (ranges ++ new) id line := by
  obtain ⟨r, hr, hfirst⟩ := h
  obtain ⟨hlt, -⟩ := List.getElem?_eq_some_iff.1 hr
  exact ⟨r, (List.getElem?_append_left hlt).trans hr, hfirst⟩

/-- An item may be ended. -/
theorem modify (h : Begun ranges id line) (id' : ItemId)
    {f : LineRange → LineRange} (hf : ∀ r, (f r).first = r.first) :
    Begun (ranges.modify id' f) id line := by
  obtain ⟨r, hr, hfirst⟩ := h
  unfold Begun
  rw [List.getElem?_modify, hr]
  by_cases hid : id' = id
  · exact ⟨f r, by simp [hid], (hf r).symm ▸ hfirst⟩
  · exact ⟨r, by simp [hid], hfirst⟩

end Begun

namespace Parse

/-- The lines of all items, in their order. -/
def State.ranges (s : State) : List LineRange :=
  s.findings.items.toList.map Item.range

theorem range_withPrototype (id : ItemId) (i : Item) :
    (State.withPrototype id i).range = i.range := by
  unfold State.withPrototype
  cases i.content <;> rfl

theorem range_withImplementation (id : ItemId) (i : Item) :
    (State.withImplementation id i).range = i.range := by
  unfold State.withImplementation
  cases i.content <;> rfl

theorem range_withBlock (i : Item) : (State.withBlock i).range = i.range := by
  unfold State.withBlock
  cases i.content <;> rfl

theorem range_withKeyword (keyword : String) (i : Item) :
    (State.withKeyword keyword i).range = i.range := by
  unfold State.withKeyword
  cases i.content <;> rfl

/-- The lines of an item that is found come after the others. -/
theorem ranges_addItem (s : State) (name : String) (t : Token)
    (content : Item.Content) :
    (s.addItem name t content).ranges = s.ranges ++ [⟨s.rootLine t, none⟩] :=
  map_addItem (fun _ _ => rfl) s name t content

theorem items_of_changeItem? {s s' : State} {id : ItemId} {f : Item → Item}
    (h : s.changeItem? id f = some s') :
    s'.findings.items = s.findings.items.modify id f := by
  unfold State.changeItem? at h
  split at h
  · cases h
    rfl
  · cases h

theorem begun_nextItem (s : State) (name : String) (t : Token)
    (content : Item.Content) :
    Begun (s.addItem name t content).ranges s.nextItem (s.rootLine t) := by
  have hsize : s.nextItem = s.ranges.length := by
    unfold State.ranges
    rw [List.length_map, Array.length_toList]
    rfl
  refine ⟨⟨s.rootLine t, none⟩, ?_, Nat.le_refl _⟩
  rw [ranges_addItem, hsize]
  exact List.getElem?_concat_length

-- ============================================================= invariant

/-- The line of an open scope is reached; the item of its block was found up
to `since`, and the item that owns what is found in it up to `now`. -/
structure ScopeDated (last since now : Nat) (ranges : List LineRange)
    (o : OpenScope) : Prop where
  line : o.line ≤ last
  block : ∀ id, (State.endedBy o.scope).2 = some id → Begun ranges id since
  item : ∀ id, o.scope.item? = some id → Begun ranges id now

/-- What a parse has found on the line `now` of a file whose last line is
`last`. -/
structure Dated (last since now : Nat) (s : State) : Prop where
  order : since ≤ now
  reached : now ≤ last
  ranges : ∀ r ∈ s.ranges, r.Fits last
  errors : ∀ e ∈ s.findings.errors, e.rootLine ≤ last
  scopes : ∀ o ∈ s.nesting.scopes, ScopeDated last since now s.ranges o
  trigger : ∀ id, s.analysis.statement.trigger = some id →
    Begun s.ranges id now
  label : ∀ id, s.analysis.pendingLabel = some id → Begun s.ranges id now
  statement : s.analysis.statement.IsFrom (Placed s.source.chain since now)

/-- The statement `st` was read and is to be ended; no other is being read. -/
structure Taken (since now : Nat) (s : State) (st : Statement) : Prop where
  none : s.analysis.statement = {}
  placed : st.IsFrom (Placed s.source.chain since now)
  trigger : ∀ id, st.trigger = some id → Begun s.ranges id now

theorem ScopeDated.mono {last since since' now now' : Nat}
    {ranges ranges' : List LineRange} {o : OpenScope}
    (h : ScopeDated last since now ranges o) (hsince : since ≤ since')
    (hnow : now ≤ now')
    (hbegun : ∀ id line, Begun ranges id line → Begun ranges' id line) :
    ScopeDated last since' now' ranges' o :=
  ⟨h.line, fun id hid => (hbegun id _ (h.block id hid)).weaken hsince,
    fun id hid => (hbegun id _ (h.item id hid)).weaken hnow⟩

namespace Dated

variable {last since now : Nat} {s s' : State} {st : Statement} {t : Token}

/-- Items are found or ended, and files brought in. -/
theorem mono (h : Dated last since now s)
    (hchain : s.source.chain.Grows s'.source.chain)
    (hbegun : ∀ id line, Begun s.ranges id line → Begun s'.ranges id line)
    (hfits : ∀ r ∈ s'.ranges, r.Fits last) (hnesting : s'.nesting = s.nesting)
    (herrors : s'.findings.errors = s.findings.errors)
    (hanalysis : s'.analysis = s.analysis) : Dated last since now s' := by
  refine ⟨h.order, h.reached, hfits, ?_, ?_, ?_, ?_, ?_⟩
  · rw [herrors]
    exact h.errors
  · rw [hnesting]
    exact fun o ho =>
      (h.scopes o ho).mono (Nat.le_refl _) (Nat.le_refl _) hbegun
  · rw [hanalysis]
    exact fun id hid => hbegun id now (h.trigger id hid)
  · rw [hanalysis]
    exact fun id hid => hbegun id now (h.label id hid)
  · rw [hanalysis]
    exact fun part hpart => (h.statement part hpart).grows hchain

/-- The line being read is further down. -/
theorem later (h : Dated last since now s) {now' : Nat} (hnow : now ≤ now')
    (hlast : now' ≤ last) : Dated last since now' s :=
  ⟨h.order.trans hnow, hlast, h.ranges, h.errors,
    fun o ho => (h.scopes o ho).mono (Nat.le_refl _) hnow fun _ _ hid => hid,
    fun id hid => (h.trigger id hid).weaken hnow,
    fun id hid => (h.label id hid).weaken hnow,
    fun part hpart => (h.statement part hpart).weaken (Nat.le_refl _) hnow⟩

/-- No statement is being read: blocks may be opened. -/
theorem between (h : Dated last since now s)
    (hparts : s.analysis.statement.parts = []) : Dated last now now s := by
  refine ⟨Nat.le_refl _, h.reached, h.ranges, h.errors,
    fun o ho => (h.scopes o ho).mono h.order (Nat.le_refl _) fun _ _ hid => hid,
    h.trigger, h.label, ?_⟩
  unfold Statement.IsFrom
  rw [hparts]
  nofun

theorem source (h : Dated last since now s) {source : Source}
    (hchain : source.chain = s.source.chain) :
    Dated last since now { s with source } :=
  ⟨h.order, h.reached, h.ranges, h.errors, h.scopes, h.trigger, h.label,
    hchain ▸ h.statement⟩

theorem addItem (h : Dated last since now s) (name : String)
    (ht : s.rootLine t ≤ last) (content : Item.Content) :
    Dated last since now (s.addItem name t content) := by
  have hranges := ranges_addItem s name t content
  refine h.mono (fun _ _ hf => hf) ?_ ?_ rfl rfl rfl
  · rw [hranges]
    exact fun id line hid => hid.append _
  · rw [hranges]
    intro r hr
    rcases List.mem_append.1 hr with hr | hr
    · exact h.ranges r hr
    · rw [List.mem_singleton.1 hr]
      exact ⟨ht, nofun⟩

theorem addErrorAt (h : Dated last since now s) (fault : StructureFault)
    (t : Token) {line : Nat} (hline : line ≤ last) (depth : Nat) :
    Dated last since now (s.addErrorAt fault t line depth) := by
  refine ⟨h.order, h.reached, h.ranges, fun e he => ?_, h.scopes, h.trigger,
    h.label, h.statement⟩
  rcases List.mem_append.1 he with he | he
  · exact h.errors e he
  · rw [List.mem_singleton.1 he]
    exact hline

/-- Scopes are opened, turned and closed. -/
theorem nested (h : Dated last since now s) {nesting : Nesting}
    (hscopes : ∀ o ∈ nesting.scopes, ScopeDated last since now s.ranges o) :
    Dated last since now { s with nesting } :=
  ⟨h.order, h.reached, h.ranges, h.errors, hscopes, h.trigger, h.label,
    h.statement⟩

theorem openScope (h : Dated last since now s) {scope : Scope}
    (ht : s.rootLine t ≤ last)
    (hblock : ∀ id, (State.endedBy scope).2 = some id →
      Begun s.ranges id since)
    (hitem : ∀ id, scope.item? = some id → Begun s.ranges id now) :
    Dated last since now (s.openScope scope t) :=
  h.nested fun o ho => by
    rcases List.mem_cons.1 ho with rfl | ho
    · exact ⟨ht, hblock, hitem⟩
    · exact h.scopes o ho

/-- A scope is closed. -/
theorem closed (h : Dated last since now s) {within around : List OpenScope}
    {found : OpenScope} (hscopes : s.nesting.scopes = within ++ found :: around) :
    Dated last since now { s with nesting := ⟨within ++ around⟩ } :=
  h.nested fun o ho => by
    refine h.scopes o ?_
    rw [hscopes]
    rcases List.mem_append.1 ho with ho | ho
    · exact List.mem_append_left _ ho
    · exact List.mem_append_right _ (List.mem_cons_of_mem _ ho)

/-- A note is taken of the statement and the names in it. -/
theorem noted (h : Dated last since now s) {a : Analysis}
    (htrigger : ∀ id, a.statement.trigger = some id → Begun s.ranges id now)
    (hlabel : ∀ id, a.pendingLabel = some id → Begun s.ranges id now)
    (hstatement : a.statement.IsFrom (Placed s.source.chain since now)) :
    Dated last since now { s with analysis := a } :=
  ⟨h.order, h.reached, h.ranges, h.errors, h.scopes, htrigger, hlabel,
    hstatement⟩

/-- Nothing but an item is changed. -/
theorem changeItem? {id : ItemId} {f : Item → Item} (h : Dated last since now s)
    (hs : s.changeItem? id f = some s')
    (hbegun : ∀ i line, Begun s.ranges i line → Begun s'.ranges i line)
    (hfits : ∀ r ∈ s'.ranges, r.Fits last) : Dated last since now s' := by
  unfold State.changeItem? at hs
  split at hs
  · cases hs
    exact h.mono (fun _ _ hf => hf) hbegun hfits rfl rfl rfl
  · cases hs

/-- More is known of an item. -/
theorem changed {id : ItemId} {f : Item → Item}
    (h : Dated last since now s) (hf : ∀ i, (f i).range = i.range)
    (hs : s.changeItem? id f = some s') :
    Dated last since now s' ∧ s'.ranges = s.ranges := by
  have hranges : s'.ranges = s.ranges := by
    rw [State.ranges, items_of_changeItem? hs]
    exact map_modify hf id
  refine ⟨h.changeItem? hs ?_ ?_, hranges⟩
  · exact fun i line hi => hranges.symm ▸ hi
  · exact hranges.symm ▸ h.ranges

/-- An item is ended, on no line above that of its token. -/
theorem ended {id : ItemId} {line : Nat} (h : Dated last since now s)
    (hid : Begun s.ranges id line) (hline : line ≤ last)
    (hs : s.setEndLine? id line = some s') : Dated last since now s' := by
  have hranges : s'.ranges
      = s.ranges.modify id fun r => { r with final := some line } := by
    rw [State.ranges, items_of_changeItem? hs]
    refine List.ext_getElem? fun n => ?_
    rw [State.ranges, List.getElem?_modify, List.getElem?_map,
      List.getElem?_map, Array.getElem?_toList, Array.getElem?_toList,
      Array.getElem?_modify]
    cases s.findings.items[n]? <;> split <;> rfl
  refine h.changeItem? hs ?_ ?_
  · rw [hranges]
    exact fun i line hi => hi.modify id fun _ => rfl
  · rw [hranges]
    intro r hr
    obtain ⟨n, hn⟩ := List.getElem?_of_mem hr
    rw [List.getElem?_modify] at hn
    obtain ⟨x, hx, rfl⟩ := Option.map_eq_some_iff.1 hn
    have hfits := h.ranges x (List.mem_of_getElem? hx)
    split
    · rename_i heq
      obtain ⟨y, hy, hfirst⟩ := hid
      rw [heq, hx] at hy
      cases hy
      refine ⟨hfits.first, fun line' hline' => ?_⟩
      cases hline'
      exact ⟨hfirst, hline⟩
    · exact hfits

-- ==================================================================== ends

theorem reading (h : Dated last since now s) {α : Type} {q : α → Prop}
    {read : Except AnalysisFault α} (hread : Reads q read) {work : α → Outcome}
    (hwork : ∀ a, q a → Dated last since now (work a).state) :
    Dated last since now (s.reading read work).state := by
  unfold State.reading
  cases read with
  | error fault => exact h
  | ok a => exact hwork a (hread a rfl)

theorem changing (h : Dated last since now s) (item : Option ItemId)
    {f : Item → Item} (hf : ∀ i, (f i).range = i.range) {next : State → Outcome}
    (hnext : ∀ u, Dated last since now u → u.ranges = s.ranges →
      u.source = s.source → Dated last since now (next u).state) :
    Dated last since now (s.changing item f next).state := by
  unfold State.changing
  cases item with
  | none => exact hnext s h rfl rfl
  | some id =>
      dsimp only
      split
      · rename_i u hu
        obtain ⟨hu', hranges⟩ := h.changed hf hu
        exact hnext u hu' hranges (changeItem?_aside hu).1
      · exact h

/-- A routine is opened whose item is found. -/
theorem openRoutine (h : Dated last now now s) {item : ItemId}
    (hitem : Begun s.ranges item now) (kind : RoutineKind) (keyword : String)
    (ht : s.rootLine t ≤ now) :
    Dated last now now (s.openRoutine item kind keyword t) := by
  have hlast := ht.trans h.reached
  have hopen : ∀ u : State, Dated last now now u → u.ranges = s.ranges →
      u.rootLine t ≤ last →
      Dated last now now (u.openScope (.routine item kind keyword t) t) := by
    intro u hu hranges hline
    refine hu.openScope hline (fun id hid => ?_) (fun id hid => ?_)
    · cases hid
      exact hranges.symm ▸ hitem
    · cases hid
      exact hranges.symm ▸ hitem
  unfold State.openRoutine
  dsimp only
  split
  · exact hopen _ (h.addErrorAt _ t hlast _) rfl hlast
  · exact hopen s h rfl hlast

section Ends

-- A statement has ended, whose tokens stand on the lines from `since` on; none
-- is being read.
variable (h : Dated last now now s)
  (hst : st.IsFrom (Placed s.source.chain since now))
include h hst

theorem endProcedure : Dated last now now (s.endProcedure st).state :=
  h.reading (reads_procedureHead hst) fun head ⟨hopener, hname⟩ =>
    (h.addItem head.name (hname.now.trans h.reached) _).openRoutine
      ((begun_nextItem s _ _ _).weaken hname.now) .procedure "PROCEDURE"
      hopener.now

theorem endFunction (colon : Bool) :
    Dated last now now (s.endFunction st colon).state := by
  refine h.reading (reads_functionHead hst) fun head ⟨hopener, hname⟩ => ?_
  have hadd := fun content =>
    h.addItem head.name (hname.now.trans h.reached) content
  split
  · refine (hadd _).changing _ (range_withImplementation _)
      fun u hu hranges hsource => ?_
    have hfound : Begun u.ranges s.nextItem now :=
      hranges.symm ▸ (begun_nextItem s head.name head.nameToken _).weaken
        hname.now
    have hline : u.rootLine head.opener ≤ now := by
      rw [State.rootLine, hsource]
      exact hopener.now
    have hset : Dated last now now (u.setFunction head.name
        { (s.function? head.name).getD {} with
          implementation := some s.nextItem }) :=
      hu.noted hu.trigger hu.label hu.statement
    exact hset.openRoutine hfound .function "FUNCTION" hline
  · exact (hadd _).changing _ (range_withPrototype _) fun u hu _ _ =>
      hu.noted hu.trigger hu.label hu.statement

theorem endMethod (colon : Bool) :
    Dated last now now (s.endMethod st colon).state := by
  refine h.reading (reads_methodHead hst colon)
    fun head ⟨hopener, hname⟩ => ?_
  have hadd := h.addItem head.name (hname.now.trans h.reached)
    (.method head.method)
  dsimp only
  split
  · exact hadd.openRoutine ((begun_nextItem s _ _ _).weaken hname.now) .method
      _ hopener.now
  · exact hadd

theorem endOn : Dated last now now (s.endOn st).state := by
  unfold State.endOn
  split
  · exact h.reading (reads_opening hst) fun first hfirst =>
      h.addItem _ (hfirst.now.trans h.reached) _
  · exact h

theorem endRun : Dated last now now (s.endRun st).state :=
  h.reading (reads_runHead hst) fun _ htarget =>
    h.addItem _ (htarget.now.trans h.reached) _

theorem openAccessor (colon : Bool) :
    Dated last now now (s.openAccessor st colon) := by
  unfold State.openAccessor
  split
  · rename_i opener hopener
    split at hopener
    · have hplaced := accessor?_isFrom hst hopener
      exact h.openScope (hplaced.now.trans h.reached) nofun nofun
    · cases hopener
  · exact h

theorem endDefine (colon : Bool) :
    Dated last now now (s.endDefine st colon).state := by
  refine h.reading (reads_defined hst) fun defined hdefined => ?_
  have hset : ∀ name temporary,
      Dated last now now (s.setLocalTable name temporary) :=
    fun _ _ => h.noted h.trigger h.label h.statement
  cases defined with
  | nothing => exact h
  | buffer token name table temporary =>
      have hline := (hdefined.token token rfl).now.trans h.reached
      exact (hset name _).addItem name hline _
  | event token name =>
      have hline := (hdefined.token token rfl).now.trans h.reached
      exact openAccessor (h.addItem name hline .event) hst colon
  | definition token name d =>
      have hline := (hdefined.token token rfl).now.trans h.reached
      dsimp only
      unfold State.addDefinition
      dsimp only
      split
      · exact openAccessor ((hset name true).addItem name hline _) hst colon
      · exact openAccessor (h.addItem name hline _) hst colon

omit hst in
theorem addItems (content : Item.Content) {ts : List Token}
    (hts : ∀ t ∈ ts, s.rootLine t ≤ last) :
    Dated last now now
      (ts.foldl (fun s t => s.addItem t.text t content) s) := by
  induction ts generalizing s with
  | nil => exact h
  | cons t ts ih =>
      obtain ⟨ht, hrest⟩ := List.forall_mem_cons.1 hts
      exact ih (h.addItem t.text ht content) hrest

theorem endVar : Dated last now now (s.endVar st).state :=
  h.reading (reads_varHead hst) fun _ ⟨hnames, _⟩ =>
    h.addItems _ fun t ht => (hnames t ht).now.trans h.reached

theorem endLabel (env : Environment) :
    Dated last now now (s.endLabel env st).1 := by
  unfold State.endLabel
  split
  · rename_i part hparts
    split
    · have hpart := hst part (hparts ▸ List.mem_cons_self)
      have hadd := h.addItem part.token.text (hpart.now.trans h.reached)
        (.label none)
      refine hadd.noted hadd.trigger (fun id hid => ?_) hadd.statement
      cases hid
      exact (begun_nextItem s _ _ _).weaken hpart.now
    · exact h
  · exact h

theorem endBlockHead
    (htrigger : ∀ id, st.trigger = some id → Begun s.ranges id now) :
    Dated last now now (s.endBlockHead st).state := by
  refine h.reading (reads_opening hst) fun opener hopener => ?_
  dsimp only
  have hline : ∀ u : State, u.source = s.source → u.rootLine opener ≤ last := by
    intro u hu
    rw [State.rootLine, hu]
    exact hopener.now.trans h.reached
  split
  · rename_i trigger hsome
    have hid : Begun s.ranges trigger now := by
      split at hsome
      · exact htrigger trigger hsome
      · cases hsome
    refine h.changing _ range_withBlock fun u hu hranges hsource => ?_
    refine hu.openScope (hline u hsource) (fun id hid' => ?_)
      (fun id hid' => ?_)
    · cases hid'
      exact hranges.symm ▸ hid
    · cases hid'
      exact hranges.symm ▸ hid
  · have hlabel := h.label
    have hnote : Dated last now now
        { s with analysis := { s.analysis with pendingLabel := none } } :=
      h.noted h.trigger nofun h.statement
    refine hnote.changing _ (range_withKeyword _) fun u hu hranges hsource => ?_
    refine hu.openScope (hline u hsource) (fun id hid => ?_) nofun
    exact hranges.symm ▸ hlabel id hid

end Ends

/-- `END` ends a block that was opened before its statement began. -/
theorem endBlock (h : Dated last since now s)
    (hst : st.IsFrom (Placed s.source.chain since now)) :
    Dated last since now (s.endBlock st).state := by
  refine h.reading (reads_opening hst) fun stop hstop => ?_
  have hlast := hstop.now.trans h.reached
  split
  · exact h.addErrorAt _ stop hlast _
  rename_i scope nesting hclose
  obtain ⟨within, line, around, hscopes, rfl, -⟩ := endBlock?_eq_some hclose
  have hmem : ⟨scope, line⟩ ∈ s.nesting.scopes := by
    rw [hscopes]
    exact List.mem_append_right _ List.mem_cons_self
  have hclosed := h.closed hscopes
  have hend : ∀ u : State, Dated last since now u → u.ranges = s.ranges →
      Dated last since now (u.changing (State.endedBy scope).2
        (fun i => { i with endLine := some (s.rootLine stop) })
        State.done).state := by
    intro u hu hranges
    have hbegun := (h.scopes _ hmem).block
    unfold State.changing
    split
    · exact hu
    · rename_i id hid
      split
      · rename_i v hv
        refine hu.ended (hranges.symm ▸ ?_) hlast hv
        exact (hbegun id hid).weaken hstop.since
      · exact hu
  dsimp only
  split
  · exact hend _ (hclosed.addErrorAt _ stop hlast _) rfl
  · exact hend _ hclosed rfl

theorem endByKind (h : Dated last since now s)
    (hparts : s.analysis.statement.parts = [])
    (hst : st.IsFrom (Placed s.source.chain since now))
    (htrigger : ∀ id, st.trigger = some id → Begun s.ranges id now)
    (env : Environment) (colon : Bool) :
    Dated last now now (s.endByKind env st colon).1.state := by
  have hnow := h.between hparts
  unfold State.endByKind
  cases st.kind with
  | procedure => exact hnow.endProcedure hst
  | function => exact hnow.endFunction hst colon
  | method => exact hnow.endMethod hst colon
  | constructor => exact hnow.endMethod hst colon
  | destructor => exact hnow.endMethod hst colon
  | on => exact hnow.endOn hst
  | run => exact hnow.endRun hst
  | define => exact hnow.endDefine hst colon
  | var => exact hnow.endVar hst
  | close =>
      refine (h.endBlock hst).between ?_
      rw [(Rests.endBlock s).statement, hparts]
  | block => exact hnow.endBlockHead hst htrigger
  | accessor =>
      cases colon with
      | false => exact hnow
      | true => exact hnow.endBlockHead hst htrigger
  | other =>
      cases colon with
      | false => exact hnow
      | true => exact hnow.endLabel hst env

/-- The end of a statement. -/
theorem endStatement (h : Dated last since now s) (hst : Taken since now s st)
    (env : Environment) (stop : Token) :
    Dated last now now (s.endStatement env st stop).state := by
  have hunder : Dated last since now (s.under st.trigger) :=
    h.noted hst.trigger h.label h.statement
  have hkind := hunder.endByKind (congrArg (·.parts) hst.none) hst.placed
    hst.trigger env (stop.text == ":")
  unfold State.endStatement
  dsimp only
  rw [hst.none]
  refine hkind.noted nofun (fun id hid => ?_) hkind.statement
  split at hid
  · exact hkind.label id hid
  · cases hid

-- =================================================================== words

section Words

variable (env : Environment) (h : Dated last since now s)
  (ht : s.rootLine t ≤ last)
include h ht

theorem useTable (table : String) (temporary : Bool) :
    Dated last since now (s.useTable t table temporary) := by
  unfold State.useTable
  dsimp only
  split
  · exact h
  · have hadd := h.addItem table ht (.tableUse temporary)
    exact hadd.noted hadd.trigger hadd.label hadd.statement

theorem addUnknown : Dated last since now (s.addUnknown t) := by
  unfold State.addUnknown
  dsimp only
  split
  · exact h
  · have hadd := h.addItem t.text ht .word
    exact hadd.noted hadd.trigger hadd.label hadd.statement

theorem useNames : Dated last since now (s.useNames env t) := by
  have table : ∀ use : Option (String × Bool),
      Dated last since now (use.elim s fun use => s.useTable t use.1 use.2)
        ∧ (use.elim s fun use => s.useTable t use.1 use.2).rootLine t
          ≤ last := by
    intro use
    cases use with
    | none => exact ⟨h, ht⟩
    | some use =>
        refine ⟨useTable h ht use.1 use.2, ?_⟩
        show (s.useTable t use.1 use.2).rootLine t ≤ last
        rw [State.rootLine, (Learns.useTable s t use.1 use.2).source]
        exact ht
  rw [State.useNames_eq]
  dsimp only
  split
  · exact addUnknown (table _).1 (table _).2
  · exact (table _).1

theorem lookAtWord (spaced : Bool) :
    Dated last since now (s.lookAtWord env t spaced) := by
  unfold State.lookAtWord
  split
  · exact h.addItem t.text ht .snippet
  split
  · split
    · exact h.addItem _ ht _
    · exact h
  split
  · exact h.addItem _ ht _
  · exact useNames env h ht

end Words

/-- A trigger is found at the first token of the statement that sets it. -/
theorem beginAtWord (h : Dated last since now s) :
    Dated last since now (s.beginAtWord t) := by
  unfold State.beginAtWord
  dsimp only
  split
  · exact h.noted nofun h.label nofun
  rename_i first hfirst
  split
  · exact h.noted h.trigger h.label nofun
  split
  · have hplaced := token?_isFrom h.statement hfirst
    have hadd := h.addItem
      (Statement.triggerName s.analysis.statement.triggerHead)
      (hplaced.now.trans h.reached)
      (.trigger s.analysis.statement.triggerHead)
    refine hadd.noted (fun id hid => ?_) hadd.label nofun
    cases hid
    exact (begun_nextItem s _ _ _).weaken hplaced.now
  · exact h

/-- A token of the line being read becomes part of the statement. -/
theorem readToken (env : Environment) (h : Dated last since now s)
    (ht : Placed s.source.chain since now t) :
    Dated last since now (s.readToken env t) := by
  have hpart : ∀ (u : State) (spaced : Bool), Dated last since now u →
      u.source = s.source → Dated last since now (u.addPart ⟨t, spaced⟩) := by
    intro u spaced hu hsource
    refine hu.noted hu.trigger hu.label fun part hpart => ?_
    rcases List.mem_append.1 hpart with hpart | hpart
    · exact hu.statement part hpart
    · rw [List.mem_singleton.1 hpart, hsource]
      exact ht
  have hread : ∀ (u : State) (spaced : Bool), Dated last since now u →
      u.source = s.source → Dated last since now
        ((if t.kind = .word then
          ({ u.beginAtWord t with analysis :=
            { (u.beginAtWord t).analysis with
              restart := Keyword.isIn t.text Keyword.restarts } } :
            State).lookAtWord env t spaced
        else u).addPart ⟨t, spaced⟩) := by
    intro u spaced hu hsource
    split
    · have hbegin := hu.beginAtWord (t := t)
      have hbegun : (u.beginAtWord t).source = s.source :=
        (Learns.beginAtWord u t).source.trans hsource
      have hrestart := hbegin.noted (a := { (u.beginAtWord t).analysis with
        restart := Keyword.isIn t.text Keyword.restarts })
        hbegin.trigger hbegin.label hbegin.statement
      refine hpart _ _ (hrestart.lookAtWord env ?_ spaced) ?_
      · show (u.beginAtWord t).source.chain.rootLine t ≤ last
        rw [hbegun]
        exact ht.now.trans h.reached
      · exact (Learns.lookAtWord env _ t spaced).source.trans hbegun
    · exact hpart u spaced hu hsource
  have hspaced : Dated last since now
      { s with analysis := { s.analysis with spaced := false } } :=
    h.noted h.trigger h.label h.statement
  exact hread _ s.analysis.spaced hspaced rfl

end Dated

end Parse

end AblOutline
