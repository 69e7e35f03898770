/-
What is followed of a state while a program is read: the open scopes, the
errors, the procedures found, and the statement being read (`State.view`). The
words of a statement add items and remember names, but change none of this
(`Quiet`), so all that matters of a statement is its kind and its tokens.
-/
import AblOutline.Proofs.Change.Run
import AblOutline.Proofs.PlainRun
import Mathlib.Data.List.Basic

namespace AblOutline.Parse

-- ============================================================ procedures

/-- A procedure that was found: its number, its name and the line of its
`END`. -/
structure Entry where
  id : ItemId
  name : String
  endLine : Option Nat
deriving DecidableEq, Repr

/-- The entry of an item that is a procedure. -/
def entry? (i : Item) : Option Entry :=
  match i.content with
  | .procedure _ => some ⟨i.id, i.name, i.endLine⟩
  | _ => none

/-- The procedures among the items, as they were found. -/
def procedureEntries (items : Array Item) : List Entry :=
  items.toList.filterMap entry?

theorem entry?_of_other {i : Item}
    (h : i.content.reportName ≠ "procedure") : entry? i = none := by
  unfold entry?
  cases hc : i.content with
  | procedure p => rw [hc] at h; exact absurd rfl h
  | _ => rfl

/-- A change of one element, seen through a partial function. -/
theorem filterMap_modify_map {α β : Type} {f : α → α} {g : α → Option β}
    {h : β → β} {l : List α} {n : Nat}
    (hg : ∀ k x, l[k]? = some x →
      g (if k = n then f x else x) = (g x).map h) :
    (l.modify n f).filterMap g = (l.filterMap g).map h := by
  induction l generalizing n with
  | nil => simp
  | cons x l ih =>
      have hrest : ∀ m, (∀ k, k + 1 = n ↔ k = m) →
          ∀ k y, l[k]? = some y → g (if k = m then f y else y) = (g y).map h := by
        intro m hm k y hy
        have := hg (k + 1) y hy
        simp only [hm k] at this
        exact this
      have hx := hg 0 x rfl
      cases n with
      | zero =>
          have hsame : l.filterMap g = (l.filterMap g).map h := by
            rw [List.map_filterMap]
            refine List.filterMap_congr fun y hy => ?_
            obtain ⟨k, hk⟩ := List.mem_iff_getElem?.1 hy
            have := hg (k + 1) y hk
            rw [if_neg (Nat.succ_ne_zero k)] at this
            exact this
          rw [if_pos rfl] at hx
          rw [List.modify_zero_cons, List.filterMap_cons, hx,
            List.filterMap_cons]
          cases g x with
          | none => exact hsame
          | some y => exact congrArg (h y :: ·) hsame
      | succ m =>
          rw [if_neg (Nat.succ_ne_zero m).symm] at hx
          rw [List.modify_succ_cons, List.filterMap_cons,
            ih (hrest m fun k => by omega), List.filterMap_cons]
          cases hgx : g x with
          | none => rfl
          | some y =>
              rw [hgx] at hx
              have hy : y = h y := Option.some.inj hx
              dsimp only
              rw [List.map_cons, ← hy]

/-- A change that is none to procedures. -/
theorem procedureEntries_modify {items : Array Item} {id : ItemId}
    {f : Item → Item}
    (h : ∀ i, items[id]? = some i → entry? (f i) = entry? i) :
    procedureEntries (items.modify id f) = procedureEntries items := by
  unfold procedureEntries
  have hmap := filterMap_modify_map (f := f) (g := entry?) (h := fun e => e)
    (l := items.toList) (n := id)
  rw [Array.toList_modify, hmap, List.map_id']
  intro k x hx
  rw [Option.map_id']
  split
  · rename_i hk
    rw [hk] at hx
    exact h x (by rw [← hx, Array.getElem?_toList])
  · rfl

/-- The end of a procedure, or of any other item. -/
theorem procedureEntries_endLine {items : Array Item} (hf : Forest items)
    (id : ItemId) (line : Nat) :
    procedureEntries (items.modify id fun i => { i with endLine := some line })
      = (procedureEntries items).map fun e =>
          if e.id = id then { e with endLine := some line } else e := by
  unfold procedureEntries
  rw [Array.toList_modify]
  refine filterMap_modify_map fun k x hx => ?_
  rw [Array.getElem?_toList] at hx
  have hid := hf.number hx
  by_cases hk : k = id
  · rw [if_pos hk]
    unfold entry?
    cases hc : x.content with
    | procedure p => simp [hid, hk]
    | _ => rfl
  · rw [if_neg hk]
    unfold entry?
    cases hc : x.content with
    | procedure p => simp [hid, hk]
    | _ => rfl

/-- The number of a procedure is that of an item. -/
theorem procedureEntries_lt {items : Array Item} (hf : Forest items)
    {e : Entry} (h : e ∈ procedureEntries items) : e.id < items.size := by
  obtain ⟨x, hx, he⟩ := List.mem_filterMap.1 h
  obtain ⟨k, hk⟩ := List.mem_iff_getElem?.1 hx
  rw [Array.getElem?_toList] at hk
  have hid := hf.number hk
  obtain ⟨hlt, -⟩ := Array.getElem?_eq_some_iff.1 hk
  unfold entry? at he
  split at he
  · cases he
    rw [hid]
    exact hlt
  · cases he

/-- An item found is the last one. -/
theorem procedureEntries_addItem (s : State) (name : String) (t : Token)
    (content : Item.Content) :
    procedureEntries (s.addItem name t content).findings.items
      = procedureEntries s.findings.items
        ++ match content with
          | .procedure _ => [⟨s.nextItem, name, none⟩]
          | _ => [] := by
  unfold State.addItem State.addItemIn
  have hpush : ∀ (item : Item), item.id = s.nextItem → item.name = name →
      item.endLine = none → item.content = content →
      procedureEntries (s.findings.items.push item)
        = procedureEntries s.findings.items
          ++ match content with
            | .procedure _ => [⟨s.nextItem, name, none⟩]
            | _ => [] := by
    intro item hid hname hend hcontent
    unfold procedureEntries
    rw [Array.toList_push, List.filterMap_append, List.filterMap_cons,
      List.filterMap_nil]
    unfold entry?
    rw [hcontent, hid, hname, hend]
    cases content <;> rfl
  cases hs : s.scopeItem? with
  | none => exact hpush _ rfl rfl rfl rfl
  | some parent =>
      dsimp only [Option.elim]
      rw [procedureEntries_modify]
      · exact hpush _ rfl rfl rfl rfl
      · exact fun _ _ => rfl

-- ================================================================== view

/-- What is followed of a state. -/
@[ext]
structure View where
  scopes : List OpenScope
  errors : List StructureError
  found : List Entry
  skip : Nat := 0
  /-- The kind and the tokens of the statement being read. -/
  kind : StatementKind := .other
  tokens : List Token := []
  trigger : Option ItemId := none
  label : Option ItemId := none
  restart : Bool := false

/-- What is followed of a state. -/
def State.view (s : State) : View :=
  { scopes := s.nesting.scopes
    errors := s.findings.errors
    found := procedureEntries s.findings.items
    skip := s.source.skip
    kind := s.analysis.statement.kind
    tokens := s.analysis.statement.parts.map (·.token)
    trigger := s.analysis.statement.trigger
    label := s.analysis.pendingLabel
    restart := s.analysis.restart }

/-- Nothing changes of what is followed, nor of the source. -/
structure Quiet (s s' : State) : Prop where
  view : s'.view = s.view
  source : s'.source = s.source

namespace Quiet

variable {s s' s'' : State}

theorem refl (s : State) : Quiet s s := ⟨rfl, rfl⟩

theorem trans (h : Quiet s s') (h' : Quiet s' s'') : Quiet s s'' :=
  ⟨h'.view.trans h.view, h'.source.trans h.source⟩

theorem addItem (s : State) (name : String) (t : Token)
    {content : Item.Content} (h : content.reportName ≠ "procedure") :
    Quiet s (s.addItem name t content) := by
  refine ⟨?_, rfl⟩
  have hfound := procedureEntries_addItem s name t content
  have hnil : (match content with
      | .procedure _ => [(⟨s.nextItem, name, none⟩ : Entry)]
      | _ => []) = [] := by
    cases content with
    | procedure p => exact absurd rfl h
    | _ => rfl
  rw [hnil, List.append_nil] at hfound
  unfold State.view
  rw [hfound]
  rfl

/-- A note of names, or of the gap before the next token. -/
theorem noted (s : State) (a : Analysis)
    (hs : a.statement = s.analysis.statement)
    (hl : a.pendingLabel = s.analysis.pendingLabel)
    (hr : a.restart = s.analysis.restart) :
    Quiet s { s with analysis := a } := by
  refine ⟨?_, rfl⟩
  unfold State.view
  rw [← hs, ← hl, ← hr]

end Quiet

-- ================================================================= words

section Words

variable (env : Environment) (s : State) (t : Token)

theorem useTable_quiet (table : String) (temporary : Bool) :
    Quiet s (s.useTable t table temporary) := by
  unfold State.useTable
  dsimp only
  split
  · exact .refl s
  · exact (Quiet.addItem s table t (by simp [Item.Content.reportName])).trans
      (.noted _ _ rfl rfl rfl)

theorem addUnknown_quiet : Quiet s (s.addUnknown t) := by
  unfold State.addUnknown
  dsimp only
  split
  · exact .refl s
  · exact (Quiet.addItem s t.text t (by simp [Item.Content.reportName])).trans
      (.noted _ _ rfl rfl rfl)

theorem useNames_quiet : Quiet s (s.useNames env t) := by
  have table : ∀ use : Option (String × Bool),
      Quiet s (use.elim s fun use => s.useTable t use.1 use.2) := by
    intro use
    cases use with
    | none => exact .refl s
    | some use => exact useTable_quiet s t use.1 use.2
  rw [State.useNames_eq]
  dsimp only
  split
  · exact (table _).trans (addUnknown_quiet _ t)
  · exact table _

theorem lookAtWord_quiet (spaced : Bool) :
    Quiet s (s.lookAtWord env t spaced) := by
  unfold State.lookAtWord
  split
  · exact .addItem s _ t (by simp [Item.Content.reportName])
  · split
    · split
      · exact .addItem s _ t (by simp [Item.Content.reportName])
      · exact .refl s
    · split
      · exact .addItem s _ t (by simp [Item.Content.reportName])
      · exact useNames_quiet env s t

/-- The next token stands without a gap before it. -/
def State.unspaced (s : State) : State :=
  { s with analysis := { s.analysis with spaced := false } }

/-- The next word begins a statement within the statement, or does not. -/
def State.restarting (s : State) (restart : Bool) : State :=
  { s with analysis := { s.analysis with restart } }

theorem readToken_word (hk : t.kind = .word) :
    s.readToken env t
      = (State.lookAtWord env
          ((s.unspaced.beginAtWord t).restarting
            (Keyword.isIn t.text Keyword.restarts))
          t s.analysis.spaced).addPart ⟨t, s.analysis.spaced⟩ := by
  unfold State.readToken
  dsimp only
  rw [if_pos hk]
  rfl

theorem readToken_other (hk : t.kind ≠ .word) :
    s.readToken env t = s.unspaced.addPart ⟨t, s.analysis.spaced⟩ := by
  unfold State.readToken
  dsimp only
  rw [if_neg hk]
  rfl

theorem view_addPart (p : Part) :
    (s.addPart p).view
      = { s.view with tokens := s.view.tokens ++ [p.token] } := by
  have htokens : (s.analysis.statement.parts ++ [p]).map (·.token)
      = s.view.tokens ++ [p.token] := List.map_append
  rw [← htokens]
  rfl

/-- A word that is read where the statement is that of `u`. -/
theorem readToken_view {u : State} (hk : t.kind = .word)
    (hw : Keyword.isIn t.text Keyword.restarts = false)
    (hb : s.unspaced.beginAtWord t = u) :
    (s.readToken env t).view
        = { u.view with restart := false, tokens := u.view.tokens ++ [t] }
      ∧ (s.readToken env t).source = u.source := by
  have hquiet := lookAtWord_quiet env (u.restarting false) t s.analysis.spaced
  rw [readToken_word env s t hk, hb, hw]
  constructor
  · rw [view_addPart, hquiet.view]
    rfl
  · show State.source (State.lookAtWord ..) = _
    rw [hquiet.source]
    rfl

/-- The first word of a statement. -/
theorem readToken_first (hk : t.kind = .word)
    (hw : Keyword.isIn t.text Keyword.restarts = false)
    (hnone : s.view.tokens = []) :
    (s.readToken env t).view
        = { s.view with
            kind := StatementKind.ofWord t.text, tokens := [t]
            trigger := none, restart := false }
      ∧ (s.readToken env t).source = s.source := by
  have hparts : s.analysis.statement.parts = [] := List.map_eq_nil_iff.1 hnone
  have hbegin : s.unspaced.beginAtWord t = s.unspaced.beginStatement t none := by
    unfold State.beginAtWord Statement.first? Statement.token?
    dsimp only
    have hunspaced : s.unspaced.analysis.statement.parts = [] := hparts
    rw [hunspaced]
    rfl
  exact readToken_view env s t hk hw hbegin

/-- A further token of a statement that is no `ON`. -/
theorem readToken_more (hw : t.kind = .word →
      Keyword.isIn t.text Keyword.restarts = false)
    (hsome : s.view.tokens ≠ []) (hr : s.view.restart = false)
    (hon : s.view.kind ≠ .on) :
    (s.readToken env t).view
        = { s.view with tokens := s.view.tokens ++ [t] }
      ∧ (s.readToken env t).source = s.source := by
  by_cases hk : t.kind = .word
  · have hbegin : s.unspaced.beginAtWord t = s.unspaced := by
      obtain ⟨p, parts, hparts⟩ := List.exists_cons_of_ne_nil
        (fun h => hsome (List.map_eq_nil_iff.2 h) :
          s.analysis.statement.parts ≠ [])
      have hfirst : s.unspaced.analysis.statement.first? = some p.token := by
        unfold Statement.first? Statement.token?
        show (s.analysis.statement.parts[0]?).map _ = _
        rw [hparts]
        rfl
      have hrestart : s.unspaced.analysis.restart = false := hr
      have haction : s.unspaced.analysis.statement.startsAction t.text
          = false := by
        unfold Statement.startsAction
        have hkind : (s.unspaced.analysis.statement.kind == .on) = false :=
          beq_false_of_ne hon
        rw [hkind]
        rfl
      unfold State.beginAtWord
      dsimp only
      rw [hfirst]
      dsimp only
      rw [hrestart, haction]
      rfl
    have hview := readToken_view env s t hk (hw hk) hbegin
    have hsame : { s.unspaced.view with restart := false } = s.view := by
      rw [← hr]
      rfl
    refine ⟨?_, hview.2⟩
    rw [hview.1, ← hsame]
  · rw [readToken_other env s t hk]
    exact ⟨view_addPart _ _, rfl⟩

end Words

end AblOutline.Parse
