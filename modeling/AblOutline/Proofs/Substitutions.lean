/-
To read ahead is to substitute. Where a token ahead is looked at, and where the
operands of a directive are read, nothing is done to the state but that
references give way to their values, one after the other, each where nothing is
expanded yet (`Substitution`). How often that is done, and in what order, is the
business of `settle`, `readCondition` and `readLine` alone: what one
substitution keeps, all of them keep.

An operand that was read is a token that stood ahead at some time meanwhile
(`Met`).
-/
import AblOutline.Parse.Run
import Mathlib.Data.List.TakeWhile
import Mathlib.Logic.Relation

namespace AblOutline.Parse

open Preprocess

-- ============================================================= references

section References

variable (platform : Platform) (s : State) (a : Ahead)

/-- The tokens that stand from `a` on, once the first of them is replaced. -/
theorem drop_splice {c : Cursor} {t : Token} {rest : List Token}
    (h : c.ahead.drop a.skipped = t :: rest) (ts : List Token) :
    (c.ahead.take a.skipped).length = a.skipped
      ∧ c.splice a ts = { c with ahead := c.ahead.take a.skipped ++ ts ++ rest }
      ∧ (c.splice a ts).ahead.drop a.skipped = ts ++ rest := by
  have hle : a.skipped ≤ c.ahead.length := by
    rcases Nat.lt_or_ge c.ahead.length a.skipped with hlt | hge
    · rw [List.drop_eq_nil_of_le (Nat.le_of_lt hlt)] at h
      cases h
    · exact hge
  have hsplice : c.splice a ts
      = { c with ahead := c.ahead.take a.skipped ++ ts ++ rest } := by
    unfold Cursor.splice
    rw [h]
  refine ⟨List.length_take_of_le hle, hsplice, ?_⟩
  rw [hsplice]
  dsimp only
  rw [List.append_assoc,
    List.drop_left' (List.length_take_of_le hle)]

/-- A reference gives way to its value, and all around it stays. -/
theorem substitute_cursor (t : Token) :
    (s.substitute platform a t).source.cursor
      = s.source.cursor.splice a (s.valueTokens platform t) := by
  have hcursor : (s.source.afterReference (referenceName t.text)
      t.owner).cursor = s.source.cursor := by
    unfold Source.afterReference
    split <;> rfl
  show (s.source.afterReference (referenceName t.text) t.owner).cursor.splice a
      (s.valueTokens platform t) = _
  rw [hcursor]

/-- The value stands where the reference stood. -/
theorem substitute_drop {t : Token} {rest : List Token}
    (h : s.source.cursor.ahead.drop a.skipped = t :: rest) :
    (s.substitute platform a t).source.cursor.ahead.drop a.skipped
      = s.valueTokens platform t ++ rest := by
  rw [substitute_cursor]
  exact (drop_splice a h _).2.2

theorem substitute_expanded (t : Token) :
    (s.substitute platform a t).source.expanded = s.source.expanded := by
  show (s.source.afterReference (referenceName t.text) t.owner).expanded = _
  unfold Source.afterReference
  split <;> rfl

/-- From `a` on there is a row of references, and no reference behind it. -/
theorem exists_append_referencesAt :
    ∃ rest, s.source.cursor.ahead.drop a.skipped = s.referencesAt a ++ rest
      ∧ (∀ t ∈ s.referencesAt a, t.kind = .reference)
      ∧ ∀ t ∈ rest.head?, t.kind ≠ .reference := by
  refine ⟨_, (List.takeWhile_append_dropWhile).symm, ?_, ?_⟩
  · intro t ht
    have href : (t.kind == .reference) = true :=
      List.mem_takeWhile_imp (p := fun t : Token => t.kind == .reference) ht
    exact eq_of_beq href
  · intro t ht hk
    have hnot := List.head?_dropWhile_not (·.kind == .reference)
      (s.source.cursor.ahead.drop a.skipped)
    rw [Option.mem_def.1 ht] at hnot
    simp [hk] at hnot

end References

-- ========================================================== substitutions

/-- A reference that stands where nothing is expanded yet gives way to its
value. -/
inductive Substitution (platform : Platform) : State → State → Prop where
  | mk (s : State) (a : Ahead) {t : Token} {rest : List Token}
      (h : s.source.cursor.ahead.drop a.skipped = t :: rest)
      (hfresh : s.source.expanded ≤ a.skipped) (hk : t.kind = .reference) :
      Substitution platform s (s.substitute platform a t)

/-- Any number of references give way, one after the other. -/
abbrev Substitutions (platform : Platform) : State → State → Prop :=
  Relation.ReflTransGen (Substitution platform)

theorem Substitutions.expanded {platform : Platform} {s s' : State}
    (h : Substitutions platform s s') :
    s'.source.expanded = s.source.expanded := by
  induction h with
  | refl => rfl
  | tail _ hstep ih =>
      cases hstep with
      | mk a hat hfresh hk =>
          exact (substitute_expanded platform _ a _).trans ih

section Expansion

variable {platform : Platform} {s : State} {a : Ahead}

/-- The references of a row that begins at `a`. -/
theorem substituteFirst_substitutions {ts rest : List Token}
    (h : s.source.cursor.ahead.drop a.skipped = ts ++ rest)
    (hfresh : s.source.expanded ≤ a.skipped)
    (hk : ∀ t ∈ ts, t.kind = .reference) :
    Substitutions platform s (s.substituteFirst platform a ts).1 := by
  induction ts generalizing s with
  | nil => exact .refl
  | cons t ts ih =>
      have hdrop := substitute_drop platform s a h
      have hfirst : Substitution platform s (s.substitute platform a t) :=
        .mk s a h hfresh (hk t List.mem_cons_self)
      unfold State.substituteFirst
      dsimp only
      split
      case isTrue hempty =>
        -- the next reference of the row stands at `a` now
        rw [List.isEmpty_iff.1 hempty] at hdrop
        exact .head hfirst (ih hdrop
          ((substitute_expanded platform s a t).symm ▸ hfresh)
          fun u hu => hk u (List.mem_cons_of_mem _ hu))
      case isFalse => exact .single hfirst

theorem settle_substitutions (depth : Nat)
    (hfresh : s.source.expanded ≤ a.skipped) :
    Substitutions platform s (s.settle platform a depth) := by
  induction depth generalizing s with
  | zero => exact .refl
  | succ depth ih =>
      obtain ⟨rest, hsplit, hrow, -⟩ := exists_append_referencesAt s a
      have hfirst : Substitutions platform s
          (s.substituteFirst platform a (s.referencesAt a)).1 :=
        substituteFirst_substitutions hsplit hfresh hrow
      unfold State.settle
      split
      · rename_i u hu
        rw [hu] at hfirst
        exact hfirst.trans (ih (hfirst.expanded.symm ▸ hfresh))
      · rename_i u hu
        rw [hu] at hfirst
        exact hfirst

theorem fresh_of_not_isExpanded (h : ¬ s.isExpanded a = true) :
    s.source.expanded ≤ a.skipped :=
  Nat.le_of_not_lt fun hlt => h (decide_eq_true hlt)

/-- A token is expanded already, or references give way first and then an
include directive is carried out. -/
theorem expandAt_cases (env : Environment) (s : State) (a : Ahead)
    (includes : Bool) :
    s.expandAt env a includes = s
      ∨ s.source.expanded ≤ a.skipped
        ∧ ∃ u, Substitutions env.options.platform s u
          ∧ s.expandAt env a includes
            = if includes then (u.expandInclude env a).markExpanded a else u := by
  unfold State.expandAt
  split
  case isTrue => exact Or.inl rfl
  case isFalse hnot =>
    have hfresh := fresh_of_not_isExpanded hnot
    exact Or.inr ⟨hfresh, _, settle_substitutions _ hfresh, rfl⟩

theorem lookAt_substitutions (env : Environment) (live : Bool) (s : State)
    (a : Ahead) :
    Substitutions env.options.platform s (lookAt env live a s) := by
  unfold lookAt
  split
  · rcases expandAt_cases env s a false with hsame | ⟨-, u, hu, hexpand⟩
    · rw [hsame]
    · rw [hexpand]
      exact hu
  · exact .refl

end Expansion

-- =============================================================== operands

/-- The token, which is no end mark, stood ahead when `s` had become some state
on the way to `s'`. -/
structure Met (platform : Platform) (s s' : State) (t : Token) : Prop where
  isEof : t.isEof = false
  ahead : ∃ u a, Substitutions platform s u ∧ Substitutions platform u s'
    ∧ u.source.cursor.peekAhead a = t

theorem Met.head {platform : Platform} {s s' s'' : State} {t : Token}
    (h : Met platform s' s'' t) (hs : Substitutions platform s s') :
    Met platform s s'' t := by
  obtain ⟨u, a, hu, hu', ht⟩ := h.ahead
  exact ⟨h.isEof, u, a, hs.trans hu, hu', ht⟩

section Operands

variable {env : Environment} {live : Bool} {steps : Nat} {a : Ahead}
  {s s' : State} {t : Token} {o : Operands}

theorem isEof_of_kind {k : TokenKind} (h : t.kind = k) (hk : k ≠ .eof) :
    t.isEof = false := by
  rw [Token.isEof, h]
  exact beq_false_of_ne hk

theorem readCondition_substitutions
    (h : readCondition env live steps a s = some (s', o)) :
    Substitutions env.options.platform s s'
      ∧ ∀ t ∈ o.tokens, Met env.options.platform s s' t := by
  induction steps generalizing a s s' o with
  | zero => cases h
  | succ steps ih =>
      have hlook := lookAt_substitutions env live s a
      unfold readCondition at h
      dsimp only at h
      split at h
      · cases h
        exact ⟨hlook, List.forall_mem_nil _⟩
      rename_i heof
      split at h
      · cases h
        exact ⟨hlook, List.forall_mem_nil _⟩
      obtain ⟨⟨u, o'⟩, hu, he⟩ := Option.map_eq_some_iff.1 h
      cases he
      obtain ⟨hrest, hmet⟩ := ih hu
      exact ⟨hlook.trans hrest, List.forall_mem_cons.2
        ⟨⟨Bool.eq_false_iff.2 heof, _, a, hlook, hrest, rfl⟩,
          fun t ht => (hmet t ht).head hlook⟩⟩

theorem readLine_substitutions
    (h : readLine env live steps a s = some (s', o)) :
    Substitutions env.options.platform s s'
      ∧ ∀ t ∈ o.tokens, Met env.options.platform s s' t := by
  induction steps generalizing a s s' o with
  | zero => cases h
  | succ steps ih =>
      have hlook := lookAt_substitutions env live s a
      unfold readLine at h
      dsimp only at h
      split at h
      · cases h
        exact ⟨hlook, List.forall_mem_nil _⟩
      rename_i hmore
      rw [Bool.or_eq_true, not_or] at hmore
      split at h
      · -- the operand is the line break after a tilde
        rename_i htilde
        obtain ⟨⟨u, o'⟩, hu, he⟩ := Option.map_eq_some_iff.1 h
        cases he
        obtain ⟨hrest, hmet⟩ := ih hu
        have hbelow := eq_of_beq (Bool.and_eq_true_iff.1 htilde).2
        exact ⟨hlook.trans hrest, List.forall_mem_cons.2
          ⟨⟨isEof_of_kind hbelow (by decide), _, a.next, hlook, hrest, rfl⟩,
            fun t ht => (hmet t ht).head hlook⟩⟩
      · obtain ⟨⟨u, o'⟩, hu, he⟩ := Option.map_eq_some_iff.1 h
        cases he
        obtain ⟨hrest, hmet⟩ := ih hu
        exact ⟨hlook.trans hrest, List.forall_mem_cons.2
          ⟨⟨Bool.eq_false_iff.2 hmore.1, _, a, hlook, hrest, rfl⟩,
            fun t ht => (hmet t ht).head hlook⟩⟩

end Operands

end AblOutline.Parse
