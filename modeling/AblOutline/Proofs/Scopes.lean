/-
The scopes of a parse. From the opening of the file to the end of its tokens
the file is open around all other scopes and nothing else is a file, so a
parse never finds itself without a scope or an item (`InOrder`). Along the way
each token makes one move of the scopes at most, which is posted to the ledger
(`Passage`). So at the end every scope was closed once or still stands, and
those that stand, but for the file, are reported one by one, the innermost
first (`Settled`).
-/
import AblOutline.Proofs.Scopes.Faults
import AblOutline.Proofs.Scopes.Shifts

namespace AblOutline

namespace Parse

-- =============================================================== passages

/-- The states that a parse passes, with the ledger of its scopes. At most one
move is posted for each token, and it leads to the scopes that are open
then. -/
inductive Passage (env : Environment) (cache : TokenCache) (text : String)
    (path : Option String) : Ledger → State → Prop where
  | opened : Passage env cache text path .start (.opened cache text path)
  /-- The first two tokens are expanded. -/
  | started : Passage env cache text path .start (.start env cache text path)
  | advanced {l : Ledger} {s s' : State}
      (h : Passage env cache text path l s) (hs : s.advance? = some s') :
      Passage env cache text path l s'
  | stepped {l l' : Ledger} {s s' : State} {steps : Nat}
      (h : Passage env cache text path l s)
      (hs : s.step env steps s.source.cursor.current = some s')
      (hl : l.Posts s.source.cursor.current s'.nesting.scopes l') :
      Passage env cache text path l' s'
  /-- The last line is recorded and the last statement ended. -/
  | ended {l l' : Ledger} {s s' : State}
      (h : Passage env cache text path l s)
      (hs : s' = (s.recordLine (s.rootLine s.source.cursor.current)).endLast
        env s.source.cursor.current)
      (hl : l.Posts s.source.cursor.current s'.nesting.scopes l') :
      Passage env cache text path l' s'

/-- The scopes are in order, and so is what a token does to them. -/
structure InOrder (env : Environment) (l : Ledger) (s : State) : Prop where
  /-- The file is open around all scopes, and no other scope is a file. -/
  file : FileOpen s.nesting.scopes
  scopes : l.scopes = s.nesting.scopes
  balanced : l.Balanced
  /-- The next token makes one move at most, so the passage goes on. -/
  posts : ∀ {steps s'}, s.step env steps s.source.cursor.current = some s' →
    ∃ l', l.Posts s.source.cursor.current s'.nesting.scopes l'
  /-- So does the end of the tokens. -/
  postsLast : ∃ l', l.Posts s.source.cursor.current
    (State.endLast env (s.recordLine (s.rootLine s.source.cursor.current))
      s.source.cursor.current).nesting.scopes l'
  /-- No token meets a state without scopes or a missing item. -/
  looks : ∀ {steps t o}, (s.observe t false).2.look env steps t
    (s.observe t false).1 = some o → o.Regular
  /-- Nor does the end of the last statement. -/
  endsLast : ∀ t, (s.takeStatement.2.endStatement env s.takeStatement.1
    t).Regular
  /-- Nor does the end of the file. -/
  endsFile : ∀ line, (s.setEndLine? 0 line).isSome = true
  stops : ∀ {steps t s' stop}, s.step env steps t = some s' →
    s.source.skip = 0 → t.kind = .eos → s.inFalseBranch = false →
    s.analysis.statement.kind = .close →
    s.analysis.statement.first? = some stop → Stops stop s s'
  stopsLast : ∀ {stop}, s.inFalseBranch = false →
    s.analysis.statement.kind = .close →
    s.analysis.statement.first? = some stop →
    ∀ t, Stops stop s (s.endLast env t)
  resumes : ∀ {steps t s'}, s.step env steps t = some s' →
    s.source.skip = 0 → t.kind = .directive →
    Preprocess.Directive.ofWord t.text = .analyzeResume →
    s.inFalseBranch = false → Resumes t s s'

/-- The error tells that the scope is never closed, at its opener. -/
structure Misses (o : OpenScope) (e : StructureError) : Prop where
  fault : State.faultOf? o.scope = some e.fault
  missing : e.fault.isMissing = true
  token : o.scope.opener? = some e.token
  line : e.rootLine = o.line

/-- What stands in the ledger at the end is what the result reports. -/
structure Settled (l : Ledger) (s : State) (r : ParsedFile) : Prop where
  depth : r.finalDepth = l.standing.length
  count : r.finalDepth = 1 + r.errors.countP (·.fault.isMissing)
  /-- The errors found before, then one for each scope but the file, the
  innermost first, with the depths down to two. -/
  errors : ∃ missing, r.errors = s.findings.errors ++ missing
    ∧ (∀ e ∈ s.findings.errors, e.fault.isMissing = false)
    ∧ List.Forall₂ (fun x e => Misses x.2 e) l.standing.dropLast missing
    ∧ missing.map (·.depth) = (List.range' 2 missing.length).reverse

-- ================================================================== order

section Order

variable {env : Environment} {cache : TokenCache} {text : String}
  {path : Option String} {l l' : Ledger} {s s' : State}

/-- What holds of every passage. -/
structure Kept (l : Ledger) (s : State) : Prop where
  sound : Sound s
  balanced : l.Balanced
  scopes : l.scopes = s.nesting.scopes
  errors : ∀ e ∈ s.findings.errors, e.fault.isMissing = false

theorem Kept.posts {t : Token} (h : Kept l s) (hs : Sound s')
    (hm : Adds s s') (hl : l.Posts t s'.nesting.scopes l') : Kept l' s' := by
  refine ⟨hs, h.balanced.posts hl, hl.scopes, fun e he => ?_⟩
  obtain ⟨more, hmore, hmissing⟩ := hm
  rw [hmore] at he
  rcases List.mem_append.1 he with he | he
  · exact h.errors e he
  · exact hmissing e he

/-- A move can be posted. -/
theorem Kept.post (h : Kept l s) (hm : Moves s s') (t : Token) :
    ∃ l', l.Posts t s'.nesting.scopes l' := by
  rcases hm.scopes with he | hshift
  · exact ⟨l, Or.inl rfl, by rw [he, h.scopes]⟩
  · exact Ledger.posts_shift t (h.scopes ▸ hshift)

theorem endLine_holds (s : State) (line : Nat) :
    Holds s (s.recordLine line) := .of_eq rfl rfl

/-- The last line and the last statement make one move at most. -/
theorem ended_moves (hs : Sound s) :
    Moves s ((s.recordLine (s.rootLine s.source.cursor.current)).endLast env
      s.source.cursor.current) :=
  (endLine_holds s (s.rootLine s.source.cursor.current)).then
    (endLast_moves (s := s.recordLine _) hs.file _)

theorem ended_sound (hs : Sound s) :
    Sound ((s.recordLine (s.rootLine s.source.cursor.current)).endLast env
      s.source.cursor.current) :=
  (endLast_keeps env _ _).sound (hs.change (.lineEnded s _))

theorem Passage.kept (h : Passage env cache text path l s) : Kept l s := by
  induction h with
  | opened =>
      exact ⟨.opened cache text path, Ledger.balanced_start, rfl,
        List.forall_mem_nil _⟩
  | started =>
      have hreads : ReadsOn (State.opened cache text path)
          (.start env cache text path) :=
        (expandAt_readsOn env _ .nearest true).trans
          (expandAt_readsOn env _ _ true)
      refine ⟨.start env cache text path, Ledger.balanced_start, ?_, ?_⟩
      · rw [hreads.nesting]
        rfl
      · rw [hreads.errors]
        exact List.forall_mem_nil _
  | advanced _ hs ih =>
      have hsound := (advance_keeps hs).sound ih.sound
      obtain ⟨cursor, -, rfl⟩ := Option.map_eq_some_iff.1 hs
      exact ⟨hsound, ih.balanced, ih.scopes, ih.errors⟩
  | stepped _ hs hl ih =>
      exact ih.posts (ih.sound.step hs)
        (step_moves ih.sound.file hs).errors hl
  | ended _ hs hl ih =>
      subst hs
      exact ih.posts (ended_sound ih.sound) (ended_moves ih.sound).errors hl

/-- A run of a parse goes on with its passage. -/
theorem Passage.run {steps : Nat} (h : Passage env cache text path l s)
    (hr : s.run env steps = some s') :
    ∃ l', Passage env cache text path l' s' := by
  induction steps generalizing l s with
  | zero => cases hr
  | succ steps ih =>
      unfold State.run at hr
      split at hr
      · cases hr
        exact ⟨l, h⟩
      · rename_i u hu
        have hadvanced := h.advanced hu
        dsimp only at hr
        split at hr
        · cases hr
          exact ⟨l, hadvanced⟩
        · split at hr
          · cases hr
          · rename_i v hv
            have hkept := hadvanced.kept
            obtain ⟨l', hl'⟩ :=
              hkept.post (step_moves hkept.sound.file hv)
                u.source.cursor.current
            exact ih (hadvanced.stepped hv hl') hr

/-- Every state that a parse passes is in order. -/
theorem Passage.inOrder (h : Passage env cache text path l s) :
    InOrder env l s := by
  have hkept := h.kept
  obtain ⟨hs, hbalanced, hscopes, -⟩ := h.kept
  refine ⟨hs.file, hscopes, hbalanced,
    fun hstep => hkept.post (step_moves hs.file hstep) _,
    hkept.post (ended_moves hs) _, ?_, ?_, ?_,
    fun hstep hskip hk hlive hc hstop =>
      step_stops hs hstep hskip hk hlive hc hstop,
    fun hlive hc hstop => endLast_stops hs.file hlive hc hstop,
    step_resumes hs⟩
  · intro steps t o hl
    exact look_regular ((observe_keeps s t false).sound hs)
      (fun _ he id hid => observe_trigger hs he hid) hl
  · intro t
    exact endStatement_regular env _ _ ((takeStatement_keeps s).sound hs)
      (fun id hid => hs.analysis.trigger hid) t
  · intro line
    unfold State.setEndLine? State.changeItem?
    rw [if_pos hs.forest.size_pos]
    rfl

end Order

-- ================================================================ leaving

section Leaving

variable (line : Nat) (s : State)

theorem misses_leave {o : OpenScope} (ho : o.scope.kind ≠ .file)
    (depth : Nat) :
    ∃ e, (s.leave line o depth).findings.errors = s.findings.errors ++ [e]
      ∧ Misses o e ∧ e.depth = depth := by
  obtain ⟨scope, opened⟩ := o
  cases scope with
  | file item => exact absurd rfl ho
  | routine item kind keyword opener =>
      exact ⟨_, rfl, ⟨rfl, rfl, rfl, rfl⟩, rfl⟩
  | conditional opener active taken =>
      exact ⟨_, rfl, ⟨rfl, rfl, rfl, rfl⟩, rfl⟩
  | suspended item opener => exact ⟨_, rfl, ⟨rfl, rfl, rfl, rfl⟩, rfl⟩
  | block opener keyword label => exact ⟨_, rfl, ⟨rfl, rfl, rfl, rfl⟩, rfl⟩

/-- All scopes within the file are reported, the innermost first. -/
theorem misses_leaveAll {inner : List OpenScope} (item : ItemId)
    (opened : Nat) (h : ∀ o ∈ inner, o.scope.kind ≠ .file) :
    ∃ missing, (s.leaveAll line (inner ++ [⟨.file item, opened⟩])).findings.errors
        = s.findings.errors ++ missing
      ∧ List.Forall₂ Misses inner missing
      ∧ missing.map (·.depth) = (List.range' 2 inner.length).reverse := by
  induction inner generalizing s with
  | nil =>
      refine ⟨[], ?_, .nil, rfl⟩
      show ((s.setEndLine? item line).getD s).findings.errors = _
      unfold State.setEndLine? State.changeItem?
      rw [List.append_nil]
      split <;> rfl
  | cons o inner ih =>
      have hlength : (inner ++ [(⟨.file item, opened⟩ : OpenScope)]).length + 1
          = inner.length + 2 := by
        rw [List.length_append]
        rfl
      obtain ⟨e, he, hmisses, hdepth⟩ := misses_leave line s
        (h o List.mem_cons_self) (inner.length + 2)
      obtain ⟨missing, hrest, hall, hdepths⟩ :=
        ih (s.leave line o (inner.length + 2)) fun x hx =>
          h x (List.mem_cons_of_mem _ hx)
      refine ⟨e :: missing, ?_, .cons hmisses hall, ?_⟩
      · rw [List.cons_append, State.leaveAll, hlength, hrest, he,
          List.append_assoc]
        rfl
      · rw [List.map_cons, hdepths, hdepth, List.length_cons,
          List.range'_concat, List.reverse_concat, Nat.one_mul, Nat.add_comm]

variable {line s} {l : Ledger}

theorem missing_of_misses {opened : List (Nat × OpenScope)}
    {missing : List StructureError}
    (h : List.Forall₂ (fun x e => Misses x.2 e) opened missing) :
    ∀ e ∈ missing, e.fault.isMissing = true := by
  induction h with
  | nil => exact List.forall_mem_nil _
  | cons hx _ ih =>
      intro e he
      rcases List.mem_cons.1 he with rfl | he
      · exact hx.missing
      · exact ih e he

/-- The scopes that stand in the ledger are those that are reported. -/
theorem Kept.settled (h : Kept l s) (options : Options) (line : Nat) :
    Settled l s
      (Result.ofState options (s.leaveAll line s.nesting.scopes)).file := by
  obtain ⟨inner, opened, hfile, hinner⟩ := h.sound.file
  obtain ⟨missing, herrors, hall, hdepths⟩ :=
    misses_leaveAll line s 0 opened hinner
  rw [← hfile] at herrors
  have hstanding : l.standing.dropLast.map (·.2) = inner := by
    rw [List.map_dropLast]
    show l.scopes.dropLast = inner
    rw [h.scopes, hfile, List.dropLast_concat]
  have hmisses : List.Forall₂ (fun x e => Misses x.2 e) l.standing.dropLast
      missing := by
    rw [← hstanding] at hall
    exact List.forall₂_map_left_iff.1 hall
  have hlength : s.nesting.depth = 1 + missing.length := by
    unfold Nesting.depth
    rw [hfile, List.length_append, hall.length_eq, Nat.add_comm]
    rfl
  have hdepth : (Result.ofState options
      (s.leaveAll line s.nesting.scopes)).file.finalDepth
        = 1 + missing.length := by
    show (s.leaveAll line s.nesting.scopes).nesting.depth = _
    rw [leaveAll_nesting, hlength]
  refine ⟨?_, ?_, missing, herrors, h.errors, hmisses, ?_⟩
  · rw [hdepth, ← hlength, Nesting.depth, ← h.scopes]
    exact List.length_map _
  · have hbefore : s.findings.errors.countP (·.fault.isMissing) = 0 :=
      List.countP_eq_zero.2 fun e he => by rw [h.errors e he]; nofun
    have hafter : missing.countP (·.fault.isMissing) = missing.length :=
      List.countP_eq_length.2 (missing_of_misses hmisses)
    show _ = 1 + (s.leaveAll line s.nesting.scopes).findings.errors.countP _
    rw [hdepth, herrors, List.countP_append, hbefore, hafter, Nat.zero_add]
  · rw [hdepths, hall.length_eq]

end Leaving

end Parse

open Parse

/-- The scopes of a parse are in order all along; at its end each scope that
was ever opened was closed once, or still stands and is reported once. -/
theorem parse_scopes (env : Environment) (cache : TokenCache) (text : String)
    (path : Option String) :
    (∀ l s, Passage env cache text path l s → InOrder env l s)
      ∧ ∀ steps r, parse? steps env cache text path = some r →
        ∃ l s line, Passage env cache text path l s
          ∧ r = .ofState env.options (s.leaveAll line s.nesting.scopes)
          ∧ Settled l s r.file := by
  refine ⟨fun l s hp => hp.inOrder, fun steps r h => ?_⟩
  obtain ⟨s, hs, rfl⟩ := Option.map_eq_some_iff.1 h
  obtain ⟨l, hl⟩ := Passage.run .started hs
  obtain ⟨l', hl'⟩ := hl.inOrder.postsLast
  have hended := hl.ended rfl hl'
  exact ⟨l', _, s.rootLine s.source.cursor.current, hended, rfl,
    hended.kept.settled env.options _⟩

/-- A block in a procedure: `END` closes the block, nothing the procedure. -/
theorem parse_scopes_block :
    ∃ r, parse? 40 {} {} "PROCEDURE p:\nDO:\nEND." none = some r
      ∧ r.file.errors.map (fun e => (e.fault, e.depth)) = [(.missingEnd, 2)]
      ∧ ∃ l s line, Passage {} {} "PROCEDURE p:\nDO:\nEND." none l s
        ∧ r = .ofState {} (s.leaveAll line s.nesting.scopes)
        ∧ Settled l s r.file := by
  have hrun : ((parse? 40 {} {} "PROCEDURE p:\nDO:\nEND." none).map
      fun r => r.file.errors.map fun e => (e.fault, e.depth))
      = some [(.missingEnd, 2)] := by
    decide +kernel
  obtain ⟨r, hr, he⟩ := Option.map_eq_some_iff.1 hrun
  exact ⟨r, hr, he, (parse_scopes {} {} _ none).2 40 r hr⟩

end AblOutline
