/-
Preprocessing comes before analysis. What words mean is a matter of the
directory, which says what tables there are and what words are known; but which
files are included, what references stand for and which branches are taken is
settled without it. Two parses of a text that know different names are in step
from the first token to the last, and all that directives and references do is
the same in both.
-/
import AblOutline.Proofs.Layers.Reading
import AblOutline.Proofs.Steps

namespace AblOutline

namespace Parse

variable {s s' : State} (env : Environment) (d : Directory) (b : Bool)
  (steps : Nat)

-- =================================================================== steps

section Step

variable (h : InStep s s') (t : Token)
include h

/-- What is recorded of a token; the statements that it stops may differ. -/
theorem observe_paces (skipped : Bool) :
    Paces (s, s') ((s.observe t skipped).2, (s'.observe t skipped).2) := by
  unfold State.observe
  rw [rootLine_eq h t]
  split
  · exact .single (.lineEnded s s' _)
  · split
    · exact .refl
    · exact Paces.both (.stopStatement s) (.stopStatement s')
  · exact .refl

theorem look_together (hs : Sound s) (hs' : Sound s')
    (ended ended' : Option Statement) :
    Together Outcome.state s s' (s.look env steps t ended)
      (s'.look (env.knowing d b) steps t ended') := by
  by_cases hk : t.kind = .directive
  · unfold State.look
    rw [if_neg hs.depth_ne_zero, if_neg hs'.depth_ne_zero, hk]
    exact directive_together h env d b steps t
  · -- each does the deeds of its own statements
    obtain ⟨o, ho, hdeeds⟩ := Deeds.look s env steps ended hk
    obtain ⟨o', ho', hdeeds'⟩ := Deeds.look s' (env.knowing d b) steps ended' hk
    rw [ho, ho']
    exact .some (Paces.both hdeeds hdeeds')

theorem takeToken_together (hs : Sound s) (hs' : Sound s') :
    Together id s s' (s.takeToken env steps t)
      (s'.takeToken (env.knowing d b) steps t) := by
  unfold State.takeToken
  rw [← h.source]
  dsimp only
  have hseen := observe_paces h t (decide (0 < s.source.skip))
  have hafter := h.paces hseen
  split
  · exact .some (hseen.trans (Paces.read hafter fun source =>
      { source with skip := source.skip - 1 }))
  · have hsound := (observe_keeps s t (decide (0 < s.source.skip))).sound hs
    have hsound' := (observe_keeps s' t (decide (0 < s.source.skip))).sound hs'
    exact rel_map (look_together env d b steps hafter t hsound hsound' _ _)
      fun _ _ hp => hseen.trans hp

omit t in
theorem expandNext_paces :
    Paces (s, s') (s.expandNext env, s'.expandNext (env.knowing d b)) := by
  unfold State.expandNext State.inFalseBranch
  rw [← h.source, ← h.inFalseBranch]
  split
  · exact expandAt_paces h env .nearest true
  · exact .refl

/-- A step on the same token does the same to what both preprocess. -/
theorem step_together (hs : Sound s) (hs' : Sound s') :
    Together id s s' (s.step env steps t)
      (s'.step (env.knowing d b) steps t) := by
  rw [step_eq, step_eq]
  exact rel_map (takeToken_together env d b steps h t hs hs') fun _ _ hp =>
    hp.trans (expandNext_paces env d b (h.paces hp))

end Step

-- ==================================================================== runs

/-- The cursors move on alike. -/
theorem advance_together (h : InStep s s') :
    Together id s s' s.advance? s'.advance? := by
  unfold State.advance?
  rw [← h.source]
  cases s.source.cursor.advance? with
  | none => exact .none
  | some cursor => exact .some (.single (.read s s' _))

/-- Both runs come to an end, in step, or none does. -/
theorem run_together (h : InStep s s') (hs : Sound s) (hs' : Sound s') :
    Together id s s' (s.run env steps) (s'.run (env.knowing d b) steps) := by
  induction steps generalizing s s' with
  | zero => exact .none
  | succ steps ih =>
      rcases rel_cases (advance_together h)
        with ⟨hm, hm'⟩ | ⟨u, u', hm, hm', hread⟩
      · rw [run_stop hm, run_stop hm']
        exact .some .refl
      have hu := (advance_keeps hm).sound hs
      have hu' := (advance_keeps hm').sound hs'
      have hstep : InStep u u' := h.paces hread
      have htoken : u'.source.cursor.current = u.source.cursor.current := by
        rw [hstep.source]
      cases heof : u.source.cursor.current.isEof with
      | true =>
          rw [run_eof hm heof, run_eof hm' (htoken ▸ heof)]
          exact .some hread
      | false =>
          rw [run_next hm heof, run_next hm' (htoken ▸ heof), htoken]
          rcases rel_cases (step_together env d b steps hstep _ hu hu')
            with ⟨hn, hn'⟩ | ⟨v, v', hn, hn', hp⟩
          · rw [hn, hn']
            exact .none
          · rw [hn, hn']
            exact rel_mono (ih (hstep.paces hp) (hu.step hn) (hu'.step hn'))
              fun _ _ hq => (hread.trans hp).trans hq

/-- The end of the tokens. -/
theorem finish_paces (h : InStep s s') :
    Paces (s, s') (s.finish env, s'.finish (env.knowing d b)) := by
  have hline := rootLine_eq h s.source.cursor.current
  have hrecord : Paces (s, s')
      (s.recordLine (s.rootLine s.source.cursor.current),
        s'.recordLine (s.rootLine s.source.cursor.current)) :=
    .single (.lineEnded s s' _)
  unfold State.finish
  dsimp only
  rw [← h.source, hline]
  refine hrecord.trans (Paces.both ?_ ?_)
  · exact (Deeds.endLast _ env _).trans (Deeds.leaveAll _ _ _)
  · exact (Deeds.endLast _ (env.knowing d b) _).trans (Deeds.leaveAll _ _ _)

/-- What is expanded before the first token. -/
theorem start_paces (cache : TokenCache) (text : String)
    (path : Option String) :
    Paces (.opened cache text path, .opened cache text path)
      (.start env cache text path,
        .start (env.knowing d b) cache text path) := by
  have hnear := expandAt_paces (s := .opened cache text path) rfl env .nearest
    true
  have hnext := expandAt_paces (InStep.paces rfl hnear) env Ahead.nearest.next
    true
  exact hnear.trans hnext

/-- From the text to the last state. -/
theorem parse_together (cache : TokenCache) (text : String)
    (path : Option String) :
    Together id (.opened cache text path) (.opened cache text path)
      (((State.start env cache text path).run env steps).map
        (·.finish env))
      (((State.start (env.knowing d b) cache text path).run (env.knowing d b)
        steps).map (·.finish (env.knowing d b))) := by
  have hstart := start_paces env d b cache text path
  have hstep : InStep _ _ := InStep.paces rfl hstart
  refine rel_map (run_together env d b steps hstep (.start env cache text path)
    (.start _ cache text path)) fun _ _ hp => ?_
  exact hstart.trans (hp.trans (finish_paces env d b (hstep.paces hp)))

-- ================================================================= result

/-- What a result tells of the preprocessing. -/
structure Preprocessed where
  tokens : Option (List Token)
  chain : IncludeChain
  asked : List Query
  cache : TokenCache
  /-- For each line, whether it is on a branch that is not taken. -/
  flags : List Bool
  /-- What directives and references have found, by name, token and content. -/
  items : List (String × Token × Item.Content)

namespace Result

def preprocessed (r : Result) : Preprocessed where
  tokens := r.file.tokens
  chain := r.file.chain
  asked := r.asked
  cache := r.cache
  flags := r.file.lines.map (·.inFalseBranch)
  items := r.file.items.toList.filterMap Item.preprocessed?

end Result

/-- Lines without a record take theirs from lines that are flagged alike. -/
theorem fill_flags {ls ls' : List (Option LineState)}
    (h : ls.map (Option.map (·.inFalseBranch))
      = ls'.map (Option.map (·.inFalseBranch))) :
    (LineState.fill ls).map (·.inFalseBranch)
      = (LineState.fill ls').map (·.inFalseBranch) := by
  have hblank : ∀ ls : List LineState,
      (ls.head?.getD LineState.blank).inFalseBranch
        = (ls.map (·.inFalseBranch)).head?.getD false := by
    intro ls
    cases ls <;> rfl
  induction ls generalizing ls' with
  | nil => rw [List.map_eq_nil_iff.1 h.symm]
  | cons l ls ih =>
      cases ls' with
      | nil => cases h
      | cons l' ls' =>
          obtain ⟨hl, hls⟩ := List.cons.inj h
          have hrest := ih hls
          cases l with
          | none =>
              obtain rfl : l' = none := Option.map_eq_none_iff.1 hl.symm
              simp only [LineState.fill, List.map_cons, hblank, hrest]
          | some l =>
              obtain ⟨l', rfl, hflag⟩ := Option.map_eq_some_iff.1 hl.symm
              exact congrArg₂ List.cons hflag.symm hrest

/-- What the last state has preprocessed, the result tells. -/
theorem preprocessed_ofState (h : InStep s s') :
    (Result.ofState env.options s).preprocessed
      = (Result.ofState (env.knowing d b).options s').preprocessed := by
  have hitems : s.findings.items.toList.filterMap Item.preprocessed?
      = s'.findings.items.toList.filterMap Item.preprocessed? :=
    congrArg Preprocessing.items h
  have hlines : s.findings.lines.toList.map (Option.map (·.inFalseBranch))
      = s'.findings.lines.toList.map (Option.map (·.inFalseBranch)) := by
    rw [← Array.toList_map, ← Array.toList_map]
    exact congrArg (·.flags.toList) h
  unfold Result.preprocessed Result.ofState
  dsimp only
  rw [fill_flags hlines, hitems, h.source]
  rfl

end Parse

open Parse in
/-- What a parse preprocesses is the same where other names are known. -/
theorem preprocessed_knowing (steps : Nat) (env : Environment) (d : Directory)
    (b : Bool) (cache : TokenCache) (text : String) (path : Option String) :
    (parse? steps env cache text path).map Result.preprocessed
      = (parse? steps (env.knowing d b) cache text path).map
          Result.preprocessed := by
  unfold parse?
  rcases rel_cases (parse_together env d b steps cache text path)
    with ⟨hx, hx'⟩ | ⟨u, u', hx, hx', hp⟩
  · rw [Option.map_eq_none_iff] at hx hx'
    rw [hx, hx']
    rfl
  · obtain ⟨v, hv, rfl⟩ := Option.map_eq_some_iff.1 hx
    obtain ⟨v', hv', rfl⟩ := Option.map_eq_some_iff.1 hx'
    rw [hv, hv']
    exact congrArg some (preprocessed_ofState env d b (InStep.paces rfl hp))

/-- Parses that know different names preprocess a text alike: they expand it to
the same tokens, include the same files, put the same questions to the
resolver, leave the same lines out and find the same definitions, references,
included files and sections; and one gives a result where the other does. -/
theorem parse_preprocessed (steps : Nat) (env : Environment)
    (d d' : Directory) (b b' : Bool) (cache : TokenCache) (text : String)
    (path : Option String) :
    (parse? steps (env.knowing d b) cache text path).map
        Parse.Result.preprocessed
      = (parse? steps (env.knowing d' b') cache text path).map
          Parse.Result.preprocessed :=
  (preprocessed_knowing steps env d b cache text path).symm.trans
    (preprocessed_knowing steps env d' b' cache text path)

end AblOutline
