/-
The limit on steps. A parse that comes to its end in some number of steps
comes to the same end in any greater number: the limit says when to give up,
and nothing else. So what a parse gives, where it gives anything, does not
depend on the limit (`run_unique`).
-/
import AblOutline.Parse.Shared
import AblOutline.Proofs.Change.Run

namespace AblOutline

namespace Parse

variable {env : Environment} {steps steps' : Nat} {s s' : State} {t : Token}
  {live : Bool} {a : Ahead}

-- ============================================================== operands

theorem readCondition_more {r : State × Operands} (hle : steps ≤ steps')
    (h : readCondition env live steps a s = some r) :
    readCondition env live steps' a s = some r := by
  induction steps generalizing steps' a s r with
  | zero => cases h
  | succ steps ih =>
      obtain ⟨k, rfl⟩ : ∃ k, steps' = k + 1 := ⟨steps' - 1, by omega⟩
      unfold readCondition at h ⊢
      dsimp only at h ⊢
      split at h
      · rename_i heof
        rw [if_pos heof]
        exact h
      rename_i heof
      rw [if_neg heof]
      split at h
      · rename_i hk
        rw [if_pos hk]
        exact h
      rename_i hk
      rw [if_neg hk]
      obtain ⟨u, hu, rfl⟩ := Option.map_eq_some_iff.1 h
      rw [ih (Nat.le_of_succ_le_succ hle) hu]
      rfl

theorem readLine_more {r : State × Operands} (hle : steps ≤ steps')
    (h : readLine env live steps a s = some r) :
    readLine env live steps' a s = some r := by
  induction steps generalizing steps' a s r with
  | zero => cases h
  | succ steps ih =>
      obtain ⟨k, rfl⟩ : ∃ k, steps' = k + 1 := ⟨steps' - 1, by omega⟩
      have hle' := Nat.le_of_succ_le_succ hle
      unfold readLine at h ⊢
      dsimp only at h ⊢
      split at h
      · rename_i hstop
        rw [if_pos hstop]
        exact h
      rename_i hstop
      rw [if_neg hstop]
      split at h
      · rename_i htilde
        rw [if_pos htilde]
        obtain ⟨u, hu, rfl⟩ := Option.map_eq_some_iff.1 h
        rw [ih hle' hu]
        rfl
      · rename_i htilde
        rw [if_neg htilde]
        obtain ⟨u, hu, rfl⟩ := Option.map_eq_some_iff.1 h
        rw [ih hle' hu]
        rfl

theorem takeCondition_more {r : State × Operands} (hle : steps ≤ steps')
    (h : s.takeCondition env steps live = some r) :
    s.takeCondition env steps' live = some r := by
  obtain ⟨u, hu, rfl⟩ := Option.map_eq_some_iff.1 h
  exact congrArg (Option.map _) (readCondition_more hle hu)

theorem takeLine_more {r : State × Operands} (hle : steps ≤ steps')
    (h : s.takeLine env steps live = some r) :
    s.takeLine env steps' live = some r := by
  obtain ⟨u, hu, rfl⟩ := Option.map_eq_some_iff.1 h
  exact congrArg (Option.map _) (readLine_more hle hu)

-- ============================================================ directives

/-- Work that goes on from what was read, where that takes more steps. -/
theorem bind_more {α β : Type} {read read' : Option α} {work : α → Option β}
    {r : β} (hread : ∀ u, read = some u → read' = some u)
    (h : read.bind work = some r) : read'.bind work = some r := by
  obtain ⟨u, hu, hr⟩ := Option.bind_eq_some_iff.1 h
  rw [hread u hu]
  exact hr

theorem map_more {α β : Type} {read read' : Option α} {work : α → β} {r : β}
    (hread : ∀ u, read = some u → read' = some u)
    (h : read.map work = some r) : read'.map work = some r := by
  obtain ⟨u, hu, rfl⟩ := Option.map_eq_some_iff.1 h
  rw [hread u hu]
  rfl

theorem ite_more {α : Type} {P : Prop} [Decidable P] {a a' b b' : Option α}
    {r : α} (ha : a = some r → a' = some r) (hb : b = some r → b' = some r)
    (h : (if P then a else b) = some r) : (if P then a' else b') = some r := by
  split at h
  · rename_i hp
    rw [if_pos hp]
    exact ha h
  · rename_i hp
    rw [if_neg hp]
    exact hb h

theorem directive_more {out : Outcome} (hle : steps ≤ steps')
    (h : s.directive env steps t = some out) :
    s.directive env steps' t = some out := by
  have hline : ∀ {live : Bool} {r}, s.takeLine env steps live = some r →
      s.takeLine env steps' live = some r := takeLine_more hle
  have hcondition : ∀ {live : Bool} {r},
      s.takeCondition env steps live = some r →
      s.takeCondition env steps' live = some r := takeCondition_more hle
  have hskip : ∀ {r}, ((s.takeLine env steps false).map (·.1)).map
        (fun s => ({ state := s } : Outcome)) = some r →
      ((s.takeLine env steps' false).map (·.1)).map
        (fun s => ({ state := s } : Outcome)) = some r :=
    map_more fun _ => map_more fun _ => hline
  unfold State.directive at h ⊢
  dsimp only at h ⊢
  cases hd : Preprocess.Directive.ofWord t.text with
  | ifThen =>
      rw [hd] at h
      exact map_more (fun u hu => bind_more (fun _ => hcondition) hu) h
  | elseIf =>
      rw [hd] at h
      refine map_more (fun u hu => ?_) h
      unfold State.elseIf at hu ⊢
      split at hu
      · exact map_more (fun _ => hcondition) hu
      · exact bind_more (fun _ => hcondition) hu
  | otherwise => rw [hd] at h; exact h
  | endIf => rw [hd] at h; exact h
  | thenPart => rw [hd] at h; exact h
  | other => rw [hd] at h; exact h
  | globalDefine =>
      rw [hd] at h
      exact ite_more hskip (bind_more (fun _ => hline)) h
  | scopedDefine =>
      rw [hd] at h
      exact ite_more hskip (bind_more (fun _ => hline)) h
  | undefine =>
      rw [hd] at h
      exact ite_more hskip (bind_more (fun _ => hline)) h
  | analyzeSuspend =>
      rw [hd] at h
      exact ite_more hskip (map_more (fun _ => bind_more fun _ => hline)) h
  | analyzeResume =>
      rw [hd] at h
      exact ite_more hskip (bind_more (fun _ => hline)) h
  | message =>
      rw [hd] at h
      exact ite_more hskip hskip h

-- ================================================================= steps

theorem look_more {ended : Option Statement} {out : Outcome}
    (hle : steps ≤ steps') (h : s.look env steps t ended = some out) :
    s.look env steps' t ended = some out := by
  unfold State.look at h ⊢
  split at h
  · rename_i hd
    rw [if_pos hd]
    exact h
  rename_i hd
  rw [if_neg hd]
  split at h
  · rename_i hk
    exact directive_more hle h
  · exact h

theorem takeToken_more (hle : steps ≤ steps')
    (h : s.takeToken env steps t = some s') :
    s.takeToken env steps' t = some s' := by
  unfold State.takeToken at h ⊢
  dsimp only at h ⊢
  split at h
  · rename_i hskip
    rw [if_pos hskip]
    exact h
  · rename_i hskip
    rw [if_neg hskip]
    exact map_more (fun _ => look_more hle) h

/-- A step is to take a token, and then to expand what is ahead. -/
theorem step_eq : s.step env steps t
    = (s.takeToken env steps t).map (·.expandNext env) := by
  unfold State.step State.takeToken
  dsimp only
  split
  · rfl
  · rw [Option.map_map]
    cases State.look env steps _ t _ <;> rfl

theorem step_more (hle : steps ≤ steps')
    (h : s.step env steps t = some s') : s.step env steps' t = some s' := by
  rw [step_eq] at h ⊢
  exact map_more (fun _ => takeToken_more hle) h

theorem run_more (hle : steps ≤ steps') (h : s.run env steps = some s') :
    s.run env steps' = some s' := by
  induction steps generalizing steps' s with
  | zero => cases h
  | succ steps ih =>
      obtain ⟨k, rfl⟩ : ∃ k, steps' = k + 1 := ⟨steps' - 1, by omega⟩
      have hle' := Nat.le_of_succ_le_succ hle
      unfold State.run at h ⊢
      split at h
      · exact h
      rename_i u hu
      dsimp only at h ⊢
      split at h
      · rename_i heof
        rw [if_pos heof]
        exact h
      rename_i heof
      rw [if_neg heof]
      split at h
      · cases h
      · rename_i v hv
        rw [step_more hle' hv]
        exact ih hle' h

/-- Two runs that come to an end come to the same. -/
theorem run_unique {n m : Nat} {u v : State} (hu : s.run env n = some u)
    (hv : s.run env m = some v) : u = v := by
  have hmax := run_more (Nat.le_max_left n m) hu
  rw [run_more (Nat.le_max_right n m) hv] at hmax
  exact (Option.some.inj hmax).symm

end Parse

end AblOutline
