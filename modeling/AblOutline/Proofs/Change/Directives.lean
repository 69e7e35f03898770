/-
Expansion and directives. Expanding what lies ahead reads the source on and
finds uses of names and included files; operands are read the same way. The
directives that define names or open and close sections change the state in
the ways of `Change`; only those of `&IF` do more.
-/
import AblOutline.Proofs.Change
import AblOutline.Proofs.Substitutions

namespace AblOutline.Parse

variable (env : Environment) (s : State)

-- ============================================================ expansion

theorem substitute_keeps (platform : Platform) (a : Ahead) (t : Token) :
    Keeps s (s.substitute platform a t) :=
  Keeps.trans (.found s _ _ (by simp [Item.Content.reportName]))
    (.read _ _)

/-- So where references give way. -/
theorem Substitutions.keeps {platform : Platform} {s s' : State}
    (h : Substitutions platform s s') : Keeps s s' := by
  induction h with
  | refl => exact .refl s
  | tail _ hstep ih =>
      cases hstep with
      | mk a hat hfresh hk => exact ih.trans (substitute_keeps _ platform a _)

/-- An item is found after the source was read on. -/
theorem readFound_keeps (source : Source) (name : String) (t : Token)
    {content : Item.Content} (h : content.reportName ≠ "file") :
    Keeps s ({ s with source }.addItem name t content) :=
  (Keeps.read s source).trans (.found _ name t h)

theorem includeAt_keeps (a : Ahead) (t : Token) :
    Keeps s (s.includeAt env a t) := by
  unfold State.includeAt
  split
  · exact .refl s
  · split
    · exact .refl s
    · dsimp only
      split
      · exact readFound_keeps s _ _ _ (by simp [Item.Content.reportName])
      · exact (readFound_keeps s _ _ _
          (by simp [Item.Content.reportName])).trans (.read _ _)

theorem expandAt_keeps (a : Ahead) (includes : Bool) :
    Keeps s (s.expandAt env a includes) := by
  rcases expandAt_cases env s a includes with hsame | ⟨-, u, hu, hexpand⟩
  · rw [hsame]
    exact .refl s
  · rw [hexpand]
    split
    · refine hu.keeps.trans (Keeps.trans ?_ (.read _ _))
      unfold State.expandInclude
      dsimp only
      split
      · exact includeAt_keeps env u a _
      · exact .refl u
    · exact hu.keeps

-- ============================================================= operands

theorem takeCondition_keeps {live : Bool} {steps : Nat} {s s' : State}
    {o : Operands} (h : s.takeCondition env steps live = some (s', o)) :
    Keeps s s' := by
  obtain ⟨⟨u, o'⟩, hu, he⟩ := Option.map_eq_some_iff.1 h
  cases he
  exact (readCondition_substitutions hu).1.keeps.trans (.read u _)

theorem takeLine_keeps {live : Bool} {steps : Nat} {s s' : State}
    {o : Operands} (h : s.takeLine env steps live = some (s', o)) :
    Keeps s s' := by
  obtain ⟨⟨u, o'⟩, hu, he⟩ := Option.map_eq_some_iff.1 h
  cases he
  exact (readLine_substitutions hu).1.keeps.trans (.read u _)

-- ========================================================== definitions

variable {env s} {steps : Nat} {t : Token} {o : Outcome}

theorem defineName_keeps {isGlobal : Bool}
    (h : s.defineName env steps t isGlobal = some o) : Keeps s o.state := by
  obtain ⟨⟨u, operands⟩, hu, h⟩ := Option.bind_eq_some_iff.1 h
  have hline := takeLine_keeps env hu
  dsimp only at h
  split at h
  · cases h
    exact hline
  · cases h
    exact hline.trans
      (readFound_keeps u _ _ _ (by simp [Item.Content.reportName]))

theorem undefineName_keeps (h : s.undefineName env steps t = some o) :
    Keeps s o.state := by
  obtain ⟨⟨u, operands⟩, hu, h⟩ := Option.bind_eq_some_iff.1 h
  have hline := takeLine_keeps env hu
  dsimp only at h
  split at h
  · cases h
    exact hline
  · cases h
    exact hline.trans
      (readFound_keeps u _ _ _ (by simp [Item.Content.reportName]))

-- ============================================================= sections

theorem openSection_keeps {s' : State}
    (h : s.openSection env steps t = some s') : Keeps s s' := by
  obtain ⟨⟨u, operands⟩, hu, h⟩ := Option.bind_eq_some_iff.1 h
  cases h
  refine (takeLine_keeps env hu).trans fun hs => ?_
  refine (Keeps.trans (.found u _ _ (by simp [Item.Content.reportName]))
    (.opened _ (.suspended _ t) t (fun _ => ?_) ⟨nofun, nofun⟩)) hs
  exact hs.isA_nextItem _ _ _

/-- What `&ANALYZE-RESUME` closes, with the scopes within and around it. -/
theorem endSection?_eq_some {n n' : Nesting} {scope : Scope}
    (h : n.endSection? = some (scope, n')) :
    ∃ within line around, n.scopes = within ++ ⟨scope, line⟩ :: around
      ∧ n' = ⟨within ++ around⟩ ∧ scope.isSuspended = true := by
  obtain ⟨⟨within, found, around⟩, hi, he⟩ := Option.map_eq_some_iff.1 h
  obtain ⟨heq, hp⟩ := Nesting.splitScopes_eq_some hi
  cases he
  exact ⟨within, found.line, around, heq, rfl, hp⟩

theorem kind_of_isSuspended {scope : Scope}
    (h : scope.isSuspended = true) :
    scope.kind ≠ .file ∧ scope.kind ≠ .conditional := by
  cases scope with
  | suspended item opener => exact ⟨nofun, nofun⟩
  | file item => cases h
  | routine item kind keyword opener => cases h
  | conditional opener active taken => cases h
  | block opener keyword label => cases h

theorem endSection_keeps (h : s.endSection env steps t = some o) :
    Keeps s o.state := by
  obtain ⟨⟨u, operands⟩, hu, h⟩ := Option.bind_eq_some_iff.1 h
  have hline := takeLine_keeps env hu
  dsimp only at h
  split at h
  · cases h
    exact hline.trans (.faulted u _ _)
  · rename_i scope nesting he
    obtain ⟨within, line, around, hs, rfl, hp⟩ := endSection?_eq_some he
    have hclose : Keeps u { u with nesting := ⟨within ++ around⟩ } :=
      .one fun _ => .closed u within around _ hs (kind_of_isSuspended hp)
    split at h
    · cases h
      exact hline.trans hclose
    · split at h
      · rename_i hset
        cases h
        exact hline.trans (hclose.trans
          (.changed (rewrites_endLine _) hset))
      · cases h
        exact hline.trans hclose

-- =========================================================== directives

/-- The directives of branches. -/
def isBranch : Preprocess.Directive → Bool
  | .ifThen | .elseIf | .otherwise | .endIf => true
  | _ => false

/-- Any directive but those of branches is read by changes alone. -/
theorem directive_keeps (h : s.directive env steps t = some o)
    (hb : isBranch (.ofWord t.text) = false) : Keeps s o.state := by
  have hplain : ∀ {live : Bool} {o : Outcome},
      ((s.takeLine env steps live).map (·.1)).map
        (fun s => ({ state := s } : Outcome)) = some o →
      Keeps s o.state := by
    intro live o h
    obtain ⟨u, hu, rfl⟩ := Option.map_eq_some_iff.1 h
    obtain ⟨⟨u', operands⟩, hu', rfl⟩ := Option.map_eq_some_iff.1 hu
    exact takeLine_keeps env hu'
  unfold State.directive at h
  dsimp only at h
  cases hd : Preprocess.Directive.ofWord t.text with
  | ifThen => rw [hd] at hb; cases hb
  | elseIf => rw [hd] at hb; cases hb
  | otherwise => rw [hd] at hb; cases hb
  | endIf => rw [hd] at hb; cases hb
  | thenPart =>
      rw [hd] at h
      cases h
      exact .refl s
  | other =>
      rw [hd] at h
      cases h
      exact .refl s
  | globalDefine =>
      rw [hd] at h
      dsimp only at h
      split at h
      · exact hplain h
      · exact defineName_keeps h
  | scopedDefine =>
      rw [hd] at h
      dsimp only at h
      split at h
      · exact hplain h
      · exact defineName_keeps h
  | undefine =>
      rw [hd] at h
      dsimp only at h
      split at h
      · exact hplain h
      · exact undefineName_keeps h
  | analyzeSuspend =>
      rw [hd] at h
      dsimp only at h
      split at h
      · exact hplain h
      · obtain ⟨u, hu, rfl⟩ := Option.map_eq_some_iff.1 h
        exact openSection_keeps hu
  | analyzeResume =>
      rw [hd] at h
      dsimp only at h
      split at h
      · exact hplain h
      · exact endSection_keeps h
  | message =>
      rw [hd] at h
      dsimp only at h
      split at h
      · exact hplain h
      · exact hplain h

end AblOutline.Parse
