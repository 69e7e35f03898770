/-
What expansion and the reading of operands leave alone: the open scopes, the
errors, the record of lines, the statement being read (`ReadsOn`). Where
nothing is to be expanded, the operands of a directive are read without any
change but to the number of tokens to pass over.
-/
import AblOutline.Proofs.Substitutions

namespace AblOutline.Parse

/-- Only the source is read on, and items are found. -/
structure ReadsOn (s s' : State) : Prop where
  nesting : s'.nesting = s.nesting
  errors : s'.findings.errors = s.findings.errors
  lines : s'.findings.lines = s.findings.lines
  analysis : s'.analysis = s.analysis

namespace ReadsOn

variable {s s' s'' : State}

theorem refl (s : State) : ReadsOn s s := ⟨rfl, rfl, rfl, rfl⟩

theorem trans (h : ReadsOn s s') (h' : ReadsOn s' s'') : ReadsOn s s'' :=
  ⟨h'.nesting.trans h.nesting, h'.errors.trans h.errors,
    h'.lines.trans h.lines, h'.analysis.trans h.analysis⟩

theorem source (s : State) (source : Source) :
    ReadsOn s { s with source } := ⟨rfl, rfl, rfl, rfl⟩

theorem addItem (s : State) (name : String) (t : Token)
    (content : Item.Content) : ReadsOn s (s.addItem name t content) :=
  ⟨rfl, rfl, rfl, rfl⟩

end ReadsOn

-- ============================================================ expansion

section Expansion

variable (env : Environment) (s : State)

theorem substitute_readsOn (platform : Platform) (a : Ahead) (t : Token) :
    ReadsOn s (s.substitute platform a t) :=
  (ReadsOn.addItem s _ t _).trans (.source _ _)

/-- So where references give way. -/
theorem Substitutions.readsOn {platform : Platform} {s s' : State}
    (h : Substitutions platform s s') : ReadsOn s s' := by
  induction h with
  | refl => exact .refl s
  | tail _ hstep ih =>
      cases hstep with
      | mk a hat hfresh hk => exact ih.trans (substitute_readsOn _ platform a _)

theorem includeAt_readsOn (a : Ahead) (t : Token) :
    ReadsOn s (s.includeAt env a t) := by
  unfold State.includeAt
  split
  · exact .refl s
  · split
    · exact .refl s
    · dsimp only
      split
      · exact (ReadsOn.source s _).trans (.addItem _ _ _ _)
      · exact (ReadsOn.source s _).trans
          ((ReadsOn.addItem _ _ _ _).trans (.source _ _))

theorem expandAt_readsOn (a : Ahead) (includes : Bool) :
    ReadsOn s (s.expandAt env a includes) := by
  rcases expandAt_cases env s a includes with hsame | ⟨-, u, hu, hexpand⟩
  · rw [hsame]
    exact .refl s
  · rw [hexpand]
    split
    · refine hu.readsOn.trans (ReadsOn.trans ?_ (.source _ _))
      unfold State.expandInclude
      dsimp only
      split
      · exact includeAt_readsOn env u a _
      · exact .refl u
    · exact hu.readsOn

theorem expandNext_readsOn : ReadsOn s (s.expandNext env) := by
  unfold State.expandNext
  split
  · exact expandAt_readsOn env s .nearest true
  · exact .refl s

/-- In a branch that is not taken the token ahead is not expanded. -/
theorem expandNext_of_false (h : s.inFalseBranch = true) :
    s.expandNext env = s := by
  unfold State.expandNext
  rw [h, Bool.not_true, Bool.and_false]
  rfl

end Expansion

-- ============================================================= operands

section Operands

variable {env : Environment} {live : Bool} {steps : Nat} {a : Ahead}
  {s s' : State} {o : Operands}

theorem takeCondition_readsOn
    (h : s.takeCondition env steps live = some (s', o)) : ReadsOn s s' := by
  obtain ⟨⟨u, o'⟩, hu, he⟩ := Option.map_eq_some_iff.1 h
  cases he
  exact (readCondition_substitutions hu).1.readsOn.trans (.source u _)

theorem takeLine_readsOn (h : s.takeLine env steps live = some (s', o)) :
    ReadsOn s s' := by
  obtain ⟨⟨u, o'⟩, hu, he⟩ := Option.map_eq_some_iff.1 h
  cases he
  exact (readLine_substitutions hu).1.readsOn.trans (.source u _)

/-- A condition that nothing is expanded in leaves the state as it was. -/
theorem readCondition_unexpanded
    (h : readCondition env false steps a s = some (s', o)) : s' = s := by
  induction steps generalizing a s' o with
  | zero => cases h
  | succ steps ih =>
      have hlook : lookAt env false a s = s := rfl
      unfold readCondition at h
      dsimp only at h
      rw [hlook] at h
      split at h
      · cases h
        rfl
      · split at h
        · cases h
          rfl
        · obtain ⟨⟨u, o'⟩, hu, he⟩ := Option.map_eq_some_iff.1 h
          cases he
          exact ih hu

theorem takeCondition_unexpanded
    (h : s.takeCondition env steps false = some (s', o)) :
    s' = s.skipping o := by
  obtain ⟨⟨u, o'⟩, hu, he⟩ := Option.map_eq_some_iff.1 h
  cases he
  rw [readCondition_unexpanded hu]

theorem readLine_unexpanded
    (h : readLine env false steps a s = some (s', o)) : s' = s := by
  induction steps generalizing a s' o with
  | zero => cases h
  | succ steps ih =>
      have hlook : lookAt env false a s = s := rfl
      unfold readLine at h
      dsimp only at h
      rw [hlook] at h
      split at h
      · cases h
        rfl
      · split at h
        · obtain ⟨⟨u, o'⟩, hu, he⟩ := Option.map_eq_some_iff.1 h
          cases he
          exact ih hu
        · obtain ⟨⟨u, o'⟩, hu, he⟩ := Option.map_eq_some_iff.1 h
          cases he
          exact ih hu

theorem takeLine_unexpanded
    (h : s.takeLine env steps false = some (s', o)) : s' = s.skipping o := by
  obtain ⟨⟨u, o'⟩, hu, he⟩ := Option.map_eq_some_iff.1 h
  cases he
  rw [readLine_unexpanded hu]

end Operands

end AblOutline.Parse
