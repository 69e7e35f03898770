/-
The lines of what is found ahead. Expansion and the reading of operands look
ahead of the line being read, but not past the last line: the items found there
count for the lines of tokens of the stream (`FindsUpTo`). A directive is read
at once, so what it opens and ends counts for the line being read
(`Dated.directive`); and so does what any other token ends or begins
(`Dated.step`).
-/
import AblOutline.Proofs.RootLines.Findings

namespace AblOutline.Parse

open Preprocess

-- =================================================================== ahead

/-- Items are found on lines up to `last`. -/
def FindsUpTo (last : Nat) (s s' : State) : Prop :=
  ∃ new, s'.ranges = s.ranges ++ new ∧ ∀ r ∈ new, r.Fits last

namespace FindsUpTo

variable {last : Nat} {s s' s'' : State}

/-- No item is found. -/
theorem none (h : s'.ranges = s.ranges) : FindsUpTo last s s' :=
  ⟨[], h.trans (List.append_nil _).symm, nofun⟩

theorem trans (h : FindsUpTo last s s') (h' : FindsUpTo last s' s'') :
    FindsUpTo last s s'' := by
  obtain ⟨new, hnew, hfits⟩ := h
  obtain ⟨new', hnew', hfits'⟩ := h'
  refine ⟨new ++ new', ?_, fun r hr => ?_⟩
  · rw [hnew', hnew, List.append_assoc]
  · exact (List.mem_append.1 hr).elim (hfits r) (hfits' r)

theorem addItem (s : State) (name : String) {t : Token}
    (ht : s.rootLine t ≤ last) (content : Item.Content) :
    FindsUpTo last s (s.addItem name t content) := by
  refine ⟨_, ranges_addItem s name t content, fun r hr => ?_⟩
  rw [List.mem_singleton.1 hr]
  exact ⟨ht, nofun⟩

end FindsUpTo

/-- A token ahead counts for a line up to the last one. -/
theorem Within.placed {last : Nat} {source : Source} (h : Within last source)
    {t : Token} (ht : t ∈ source.cursor.ahead) :
    Placed source.chain 0 last t :=
  ⟨h.known t ht, Nat.zero_le _, h.lines t ht⟩

section Expansion

variable {last : Nat} {env : Environment} {platform : Platform} {s s' : State}
  {a : Ahead}

theorem substitute_finds {t : Token}
    (ht : s.rootLine t ≤ last) :
    FindsUpTo last s (s.substitute platform a t) :=
  (FindsUpTo.addItem s _ ht _).trans (.none rfl)

/-- References that give way count for lines up to the last one. -/
theorem Substitutions.finds (h : Substitutions platform s s')
    (hw : Within last s.source) : FindsUpTo last s s' := by
  induction h with
  | refl => exact .none rfl
  | tail hu hstep ih =>
      cases hstep with
      | mk a hat hfresh hk =>
          have hw' := hw.edits (Substitutions.edits hu)
          exact ih.trans (substitute_finds (hw'.lines _
            (List.mem_of_mem_drop (hat ▸ List.mem_cons_self))))

/-- So does a token that stood ahead meanwhile. -/
theorem Met.placed {t : Token} (h : Met platform s s' t)
    (hw : Within last s.source) : Placed s'.source.chain 0 last t := by
  obtain ⟨u, a, hu, hu', rfl⟩ := h.ahead
  have hw' := hw.edits hu.edits
  exact (hw'.placed (peekAhead_mem hw'.beyond h.isEof)).grows hu'.edits.grows

theorem includeAt_finds {t : Token} (ht : Placed s.source.chain 0 last t) :
    FindsUpTo last s (s.includeAt env a t) := by
  unfold State.includeAt
  split
  · exact .none rfl
  split
  · exact .none rfl
  rename_i call _
  dsimp only
  obtain ⟨-, hchain, -⟩ :=
    openInclude_stream env.resolver s.source call.file t.owner
  generalize State.openInclude env.resolver s.source call.file t.owner = opened
    at *
  obtain ⟨path, tokens, source⟩ := opened
  dsimp only at hchain ⊢
  have hopened : FindsUpTo last s { s with source } := .none rfl
  have ht' : Placed source.chain 0 last t := hchain.symm ▸ ht
  cases tokens with
  | none => exact hopened.trans (.addItem _ call.file ht'.now _)
  | some tokens =>
      let file : ChainFile :=
        { name := call.file, path, trigger := some t, parent := some t.owner
          rootLine := source.chain.rootLine t, arguments := call }
      let u : State :=
        { s with source := { source with chain := source.chain.push file } }
      have hline : u.rootLine t ≤ last :=
        (Nat.le_of_eq (rootLine_push ht'.owner)).trans ht'.now
      have hadd := FindsUpTo.addItem u call.file hline
        (.inclusion path (some source.chain.size))
      exact hadd.trans (.none rfl)

theorem expandAt_finds (hw : Within last s.source) (includes : Bool) :
    FindsUpTo last s (s.expandAt env a includes) := by
  rcases expandAt_cases env s a includes with hsame | ⟨-, u, hu, hexpand⟩
  · rw [hsame]
    exact .none rfl
  rw [hexpand]
  have hw' := hw.edits hu.edits
  split
  · refine (hu.finds hw).trans (FindsUpTo.trans ?_ (.none rfl))
    unfold State.expandInclude
    dsimp only
    split
    · rename_i hk
      exact includeAt_finds
        (hw'.placed (peekAhead_mem hw'.beyond (isEof_of_kind hk nofun)))
    · exact .none rfl
  · exact hu.finds hw

end Expansion

namespace Dated

variable {last since now steps : Nat} {env : Environment} {live : Bool}
  {s s' : State} {t : Token} {o : Operands} {out : Outcome}

/-- The source is read on, and items are found ahead. -/
theorem read (h : Dated last since now s) (he : Edits s.source s'.source)
    (hreads : ReadsOn s s') (hfinds : FindsUpTo last s s') :
    Dated last since now s' := by
  obtain ⟨new, hnew, hfits⟩ := hfinds
  refine h.mono he.grows ?_ ?_ hreads.nesting hreads.errors hreads.analysis
  · rw [hnew]
    exact fun id line hid => hid.append new
  · rw [hnew]
    exact fun r hr => (List.mem_append.1 hr).elim (h.ranges r) (hfits r)

theorem substitutions (h : Dated last since now s) (hw : Within last s.source)
    {platform : Platform} (hs : Substitutions platform s s') :
    Dated last since now s' :=
  h.read hs.edits hs.readsOn (hs.finds hw)

theorem expandAt (h : Dated last since now s) (hw : Within last s.source)
    (a : Ahead) (includes : Bool) :
    Dated last since now (s.expandAt env a includes) :=
  h.read (expandAt_edits env s a includes) (expandAt_readsOn env s a includes)
    (expandAt_finds hw includes)

theorem expandNext (h : Dated last since now s)
    (hw : Within last s.source) : Dated last since now (s.expandNext env) := by
  unfold State.expandNext
  split
  · exact h.expandAt hw .nearest true
  · exact h

theorem takeCondition (h : Dated last since now s) (hw : Within last s.source)
    (hread : s.takeCondition env steps live = some (s', o)) :
    Dated last since now s' := by
  obtain ⟨⟨u, o'⟩, hu, he⟩ := Option.map_eq_some_iff.1 hread
  cases he
  exact (h.substitutions hw (readCondition_substitutions hu).1).source rfl

theorem takeLine (h : Dated last since now s) (hw : Within last s.source)
    (hread : s.takeLine env steps live = some (s', o)) :
    Dated last since now s'
      ∧ ∀ t, o.first? = some t → s'.rootLine t ≤ last := by
  obtain ⟨⟨u, o'⟩, hu, he⟩ := Option.map_eq_some_iff.1 hread
  cases he
  obtain ⟨hsubst, hmet⟩ := readLine_substitutions hu
  exact ⟨(h.substitutions hw hsubst).source rfl,
    fun t ht => ((hmet t (List.mem_of_find?_eq_some ht)).placed hw).now⟩

-- ================================================================ branches

/-- An `&IF` on another branch belongs to no item, as before. -/
theorem turn (h : Dated last since now s) (active spent : Bool) :
    Dated last since now
      { s with nesting := s.nesting.turn active spent } := by
  refine h.nested fun o ho => ?_
  unfold Nesting.turn at ho
  split at ho
  · rename_i within found around hfound
    obtain ⟨hscopes, -⟩ := Nesting.splitScopes_eq_some hfound
    have hold : ∀ x, x ∈ within ∨ x ∈ found :: around →
        ScopeDated last since now s.ranges x := fun x hx =>
      h.scopes x (hscopes ▸ List.mem_append.2 hx)
    rcases List.mem_append.1 ho with ho | ho
    · exact hold o (Or.inl ho)
    rcases List.mem_cons.1 ho with rfl | ho
    · obtain ⟨hline, hblock, hitem⟩ := hold found (Or.inr List.mem_cons_self)
      have hsame : (State.endedBy (Nesting.turned active spent
            found.scope)).2 = (State.endedBy found.scope).2
          ∧ (Nesting.turned active spent found.scope).item?
            = found.scope.item? := by
        cases found.scope <;> exact ⟨rfl, rfl⟩
      exact ⟨hline, hsame.1 ▸ hblock, hsame.2 ▸ hitem⟩
    · exact hold o (Or.inr (List.mem_cons_of_mem _ ho))
  · exact h.scopes o ho

/-- A name is defined or forgotten. -/
theorem defined (h : Dated last since now s) (ht : s.rootLine t ≤ last)
    (definitions : Definitions) (content : Item.Content) :
    Dated last since now
      (({ s with source := { s.source with definitions } } : State).addItem
        t.text t content) := by
  have hdefined : Dated last since now
      { s with source := { s.source with definitions } } := h.source rfl
  exact hdefined.addItem t.text ht content

section Directives

-- The directive `t` is read on the line `now`.
variable (h : Dated last since now s) (hw : Within last s.source)
  (ht : Placed s.source.chain now now t)
include h hw ht

theorem openIf (hs : s.openIf env steps t = some s') :
    Dated last since now s' := by
  obtain ⟨⟨u, condition⟩, hu, he⟩ := Option.bind_eq_some_iff.1 hs
  cases he
  have ht' := ht.grows (takeCondition_edited hu).source.grows
  exact (h.takeCondition hw hu).openScope (ht'.now.trans h.reached) nofun nofun

theorem elseIf (hs : s.elseIf env steps t = some s') :
    Dated last since now s' := by
  unfold State.elseIf at hs
  split at hs
  · obtain ⟨⟨u, condition⟩, hu, rfl⟩ := Option.map_eq_some_iff.1 hs
    have ht' := ht.grows (takeCondition_edited hu).source.grows
    exact (h.takeCondition hw hu).addErrorAt _ t (ht'.now.trans h.reached) _
  · obtain ⟨⟨u, condition⟩, hu, he⟩ := Option.bind_eq_some_iff.1 hs
    cases he
    exact (h.takeCondition hw hu).turn _ _

omit hw in
theorem otherwise : Dated last since now (s.otherwise t) := by
  unfold State.otherwise
  split
  · exact h.addErrorAt _ t (ht.now.trans h.reached) _
  · exact h.turn _ _

omit hw in
theorem endIf : Dated last since now (s.endIf t) := by
  unfold State.endIf
  split
  · exact h.addErrorAt _ t (ht.now.trans h.reached) _
  · rename_i nesting hn
    obtain ⟨⟨within, found, around⟩, hfound, rfl⟩ :=
      Option.map_eq_some_iff.1 hn
    exact h.closed (Nesting.splitScopes_eq_some hfound).1

omit ht in
theorem defineName {isGlobal : Bool}
    (hs : s.defineName env steps t isGlobal = some out) :
    Dated last since now out.state := by
  obtain ⟨⟨u, operands⟩, hu, hs⟩ := Option.bind_eq_some_iff.1 hs
  obtain ⟨hread, hfirst⟩ := h.takeLine hw hu
  dsimp only at hs
  split at hs
  · cases hs
    exact hread
  · rename_i name hname
    cases hs
    exact hread.defined (hfirst name hname) _ _

omit ht in
theorem undefineName (hs : s.undefineName env steps t = some out) :
    Dated last since now out.state := by
  obtain ⟨⟨u, operands⟩, hu, hs⟩ := Option.bind_eq_some_iff.1 hs
  obtain ⟨hread, hfirst⟩ := h.takeLine hw hu
  dsimp only at hs
  split at hs
  · cases hs
    exact hread
  · rename_i name hname
    cases hs
    exact hread.defined (hfirst name hname) _ _

/-- The item of a section is found on the line of its directive. -/
theorem openSection (hs : s.openSection env steps t = some s') :
    Dated last since now s' := by
  obtain ⟨⟨u, operands⟩, hu, hs⟩ := Option.bind_eq_some_iff.1 hs
  cases hs
  have ht' := ht.grows (takeLine_edited hu).source.grows
  have hline := ht'.now.trans h.reached
  refine ((h.takeLine hw hu).1.addItem _ hline _).openScope hline nofun
    fun id hid => ?_
  cases hid
  exact (begun_nextItem u _ t _).weaken ht'.now

/-- A section is ended on the line of the directive that ends it. -/
theorem endSection (hs : s.endSection env steps t = some out) :
    Dated last since now out.state := by
  obtain ⟨⟨u, operands⟩, hu, hs⟩ := Option.bind_eq_some_iff.1 hs
  have hread := (h.takeLine hw hu).1
  have ht' := ht.grows (takeLine_edited hu).source.grows
  have hline := ht'.now.trans h.reached
  dsimp only at hs
  split at hs
  · cases hs
    exact hread.addErrorAt _ t hline _
  rename_i scope nesting hend
  obtain ⟨within, line, around, hscopes, rfl, -⟩ := endSection?_eq_some hend
  have hclosed := hread.closed hscopes
  split at hs
  · cases hs
    exact hclosed
  rename_i item hitem
  have hmem : ⟨scope, line⟩ ∈ u.nesting.scopes := by
    rw [hscopes]
    exact List.mem_append_right _ List.mem_cons_self
  have hbegun := (hread.scopes _ hmem).item item hitem
  split at hs
  · rename_i v hv
    cases hs
    exact hclosed.ended (hbegun.weaken ht'.since) hline hv
  · cases hs
    exact hclosed

theorem directive (hs : s.directive env steps t = some out) :
    Dated last since now out.state := by
  have hplain : ∀ {live : Bool} {out : Outcome},
      ((s.takeLine env steps live).map (·.1)).map
        (fun s => ({ state := s } : Outcome)) = some out →
      Dated last since now out.state := by
    intro live out hs
    obtain ⟨u, hu, rfl⟩ := Option.map_eq_some_iff.1 hs
    obtain ⟨⟨u', operands⟩, hu', rfl⟩ := Option.map_eq_some_iff.1 hu
    exact (h.takeLine hw hu').1
  unfold State.directive at hs
  dsimp only at hs
  cases hd : Directive.ofWord t.text with
  | ifThen =>
      rw [hd] at hs
      obtain ⟨u, hu, rfl⟩ := Option.map_eq_some_iff.1 hs
      exact h.openIf hw ht hu
  | elseIf =>
      rw [hd] at hs
      obtain ⟨u, hu, rfl⟩ := Option.map_eq_some_iff.1 hs
      exact h.elseIf hw ht hu
  | otherwise =>
      rw [hd] at hs
      cases hs
      exact h.otherwise ht
  | endIf =>
      rw [hd] at hs
      cases hs
      exact h.endIf ht
  | thenPart | other =>
      rw [hd] at hs
      cases hs
      exact h
  | globalDefine | scopedDefine =>
      rw [hd] at hs
      dsimp only at hs
      split at hs
      · exact hplain hs
      · exact h.defineName hw hs
  | undefine =>
      rw [hd] at hs
      dsimp only at hs
      split at hs
      · exact hplain hs
      · exact h.undefineName hw hs
  | analyzeSuspend =>
      rw [hd] at hs
      dsimp only at hs
      split at hs
      · exact hplain hs
      · obtain ⟨u, hu, rfl⟩ := Option.map_eq_some_iff.1 hs
        exact h.openSection hw ht hu
  | analyzeResume =>
      rw [hd] at hs
      dsimp only at hs
      split at hs
      · exact hplain hs
      · exact h.endSection hw ht hs
  | message =>
      rw [hd] at hs
      dsimp only at hs
      split at hs
      · exact hplain hs
      · exact hplain hs

end Directives

-- =================================================================== steps

theorem takeStatement (h : Dated last since now s) :
    Dated last since now s.takeStatement.2
      ∧ Taken since now s.takeStatement.2 s.takeStatement.1 :=
  ⟨h.noted nofun h.label nofun, rfl, h.statement, h.trigger⟩

/-- A line is recorded, or the statement that was read is taken. -/
theorem observe (h : Dated last since now s) (t : Token) (skipped : Bool) :
    Dated last since now (s.observe t skipped).2
      ∧ ∀ st, (s.observe t skipped).1 = some st →
        Taken since now (s.observe t skipped).2 st := by
  have hstop : Dated last since now s.stopStatement.2
      ∧ ∀ st, s.stopStatement.1 = some st →
        Taken since now s.stopStatement.2 st := by
    obtain ⟨htake, htaken⟩ := h.takeStatement
    have hrestart := htake.noted (a := { s.takeStatement.2.analysis with
      restart := false }) htake.trigger htake.label htake.statement
    unfold State.stopStatement
    dsimp only
    split
    · exact ⟨hrestart, nofun⟩
    · refine ⟨hrestart, fun st hst => ?_⟩
      cases hst
      exact ⟨htaken.none, htaken.placed, htaken.trigger⟩
  unfold State.observe
  split
  · exact ⟨h.mono (fun _ _ hf => hf) (fun _ _ hid => hid) h.ranges rfl rfl rfl,
      nofun⟩
  · split
    · exact ⟨h, nofun⟩
    · exact hstop
  · exact ⟨h, nofun⟩

theorem look (h : Dated last since now s) (hw : Within last s.source)
    (ht : Placed s.source.chain now now t) {ended : Option Statement}
    (hended : ∀ st, ended = some st → Taken since now s st)
    (hs : s.look env steps t ended = some out) :
    ∃ since, Dated last since now out.state := by
  have hspace : Dated last since now s.space :=
    h.noted h.trigger h.label h.statement
  unfold State.look at hs
  split at hs
  · cases hs
    exact ⟨since, h⟩
  split at hs
  · exact ⟨since, h.directive hw ht hs⟩
  split at hs
  · cases hs
    exact ⟨since, h⟩
  split at hs
  · cases hs
    exact ⟨since, hspace⟩
  · cases hs
    exact ⟨since, hspace⟩
  · cases hs
    exact ⟨since, hspace⟩
  · split at hs
    · rename_i statement
      cases hs
      obtain ⟨hnone, hplaced, htrigger⟩ := hended statement rfl
      exact ⟨now, hspace.endStatement ⟨hnone, hplaced, htrigger⟩ env t⟩
    · cases hs
      exact ⟨since, hspace⟩
  · cases hs
    exact ⟨since, h⟩
  · cases hs
    exact ⟨since, h⟩
  · cases hs
    exact ⟨since, h⟩
  · cases hs
    exact ⟨since, h.readToken env (ht.weaken h.order (Nat.le_refl _))⟩

/-- A token is read on the line that it counts for. -/
theorem step (h : Dated last since now s) (hw : Within last s.source)
    (ht : Placed s.source.chain now now t)
    (hs : s.step env steps t = some s') :
    ∃ since, Dated last since now s' := by
  rcases step_cases hs with ⟨-, u, rfl, rfl⟩ | ⟨-, out, hlook, rfl⟩
  · obtain ⟨hobserve, -⟩ := h.observe t true
    have hw' : Within last (s.observe t true).2.source :=
      (observe_source s t true).symm ▸ hw
    generalize (s.observe t true).2 = u at *
    have hskip : Dated last since now
        { u with source := { u.source with skip := u.source.skip - 1 } } :=
      hobserve.source rfl
    exact ⟨since, hskip.expandNext (hw'.edits (Edits.aside rfl))⟩
  · have hsource := observe_source s t false
    obtain ⟨hobserve, hended⟩ := h.observe t false
    have hw' : Within last (s.observe t false).2.source := hsource ▸ hw
    have ht' : Placed (s.observe t false).2.source.chain now now t :=
      hsource.symm ▸ ht
    obtain ⟨since', hdone⟩ := hobserve.look hw' ht' hended hlook
    exact ⟨since', hdone.expandNext
      (hw'.edits (look_onlyReads hlook).edited.source)⟩

end Dated

end AblOutline.Parse
