/-
Runs over tokens that nothing expands: no references and no include
directives lie ahead. Then looking ahead changes nothing but the count of
tokens that are known to be expanded, every step takes one token off the
stream, and a run that is given more steps than there are tokens reaches the
end (`Leads`). A state that is `Facing` some tokens has them still to read.
-/
import AblOutline.Proofs.Change.Run
import AblOutline.Proofs.ReadingOn

namespace AblOutline.Parse

-- ================================================================= plain

/-- A token that stands for itself. -/
def IsPlain (t : Token) : Prop := t.kind ≠ .reference ∧ t.kind ≠ .inclusion

instance (t : Token) : Decidable (IsPlain t) := inferInstanceAs (Decidable (_ ∧ _))

/-- Nothing ahead is to be expanded. -/
structure Plain (s : State) : Prop where
  ahead : ∀ t ∈ s.source.cursor.ahead, IsPlain t
  beyond : IsPlain s.source.cursor.beyond

/-- The state with another count of tokens that are expanded. -/
def State.expandedTo (s : State) (n : Nat) : State :=
  { s with source := { s.source with expanded := n } }

section Plain

variable {env : Environment} {s : State}

theorem Plain.peekAhead (h : Plain s) (a : Ahead) :
    IsPlain (s.source.cursor.peekAhead a) := by
  unfold Cursor.peekAhead
  cases ha : s.source.cursor.ahead[a.skipped]? with
  | none => exact h.beyond
  | some t => exact h.ahead t (List.mem_of_getElem? ha)

theorem Plain.referencesAt (h : Plain s) (a : Ahead) :
    s.referencesAt a = [] := by
  unfold State.referencesAt
  cases hd : s.source.cursor.ahead.drop a.skipped with
  | nil => rfl
  | cons t rest =>
      have hmem : t ∈ s.source.cursor.ahead := by
        refine List.mem_of_mem_drop (i := a.skipped) ?_
        rw [hd]
        exact List.mem_cons_self
      have ht : (t.kind == .reference) = false := beq_false_of_ne (h.ahead t hmem).1
      rw [List.takeWhile_cons, ht]
      rfl

theorem Plain.settle (h : Plain s) (platform : Platform) (a : Ahead)
    (depth : Nat) : s.settle platform a depth = s := by
  cases depth with
  | zero => rfl
  | succ depth =>
      unfold State.settle
      rw [h.referencesAt]
      rfl

/-- A reference that is looked for and not there. -/
theorem Plain.lookAt (h : Plain s) (live : Bool) (a : Ahead) :
    lookAt env live a s = s := by
  cases live with
  | false => rfl
  | true =>
      show s.expandAt env a false = s
      unfold State.expandAt
      split
      · rfl
      · exact h.settle ..

variable (env)

theorem Plain.expandAt (h : Plain s) (a : Ahead) :
    ∃ n, s.expandAt env a true = s.expandedTo n := by
  unfold State.expandAt
  split
  · exact ⟨s.source.expanded, rfl⟩
  · rw [h.settle]
    have hne := (h.peekAhead a).2
    unfold State.expandInclude
    dsimp only
    rw [if_pos rfl, if_neg hne]
    exact ⟨_, rfl⟩

theorem Plain.expandNext (h : Plain s) :
    ∃ n, s.expandNext env = s.expandedTo n := by
  unfold State.expandNext
  split
  · exact h.expandAt env .nearest
  · exact ⟨s.source.expanded, rfl⟩

theorem Plain.expandedTo (h : Plain s) (n : Nat) : Plain (s.expandedTo n) :=
  ⟨h.ahead, h.beyond⟩

end Plain

-- ============================================================= operands

section Operands

variable {env : Environment} {live : Bool} {s : State}

theorem peekAhead_of_drop {c : Cursor} {a : Ahead} {t : Token}
    {rest : List Token} (h : c.ahead.drop a.skipped = t :: rest) :
    c.peekAhead a = t := by
  have hget := congrArg (·[0]?) h
  rw [List.getElem?_drop, Nat.add_zero] at hget
  unfold Cursor.peekAhead
  rw [hget]
  rfl

/-- A condition that `&THEN` ends. -/
theorem Plain.readCondition (h : Plain s) {front : List Token} {stop : Token}
    {rest : List Token} {k : Nat} {a : Ahead}
    (hfront : ∀ t ∈ front, t.isEof = false ∧ t.kind ≠ .directive)
    (hstop : stop.kind = .directive)
    (hthen : Preprocess.Directive.ofWord stop.text = .thenPart)
    (hahead : s.source.cursor.ahead.drop a.skipped = front ++ stop :: rest)
    (hk : front.length < k) :
    readCondition env live k a s = some (s, ⟨front, front.length + 1⟩) := by
  induction k generalizing front a with
  | zero => cases hk
  | succ k ih =>
      unfold Parse.readCondition
      rw [h.lookAt]
      dsimp only
      cases front with
      | nil =>
          rw [peekAhead_of_drop hahead]
          have hne : stop.isEof = false := by
            unfold Token.isEof
            rw [hstop]
            rfl
          rw [hne, if_neg Bool.false_ne_true, if_pos hstop, if_pos hthen]
          rfl
      | cons t front =>
          obtain ⟨hne, hkind⟩ := hfront t List.mem_cons_self
          rw [peekAhead_of_drop hahead, hne, if_neg Bool.false_ne_true, if_neg hkind]
          have hnext : s.source.cursor.ahead.drop a.next.skipped
              = front ++ stop :: rest := by
            show s.source.cursor.ahead.drop (a.skipped + 1) = _
            rw [← List.drop_drop, hahead]
            rfl
          rw [ih (fun u hu => hfront u (List.mem_cons_of_mem _ hu)) hnext
            (Nat.lt_of_succ_lt_succ hk)]
          rfl

/-- A line of operands that a line break ends. -/
theorem Plain.readLine (h : Plain s) {front : List Token} {stop : Token}
    {rest : List Token} {k : Nat} {a : Ahead}
    (hfront : ∀ t ∈ front, t.isEof = false ∧ t.kind ≠ .eol
      ∧ t.isSymbol "~" = false)
    (hstop : stop.kind = .eol ∨ stop.isEof = true)
    (hahead : s.source.cursor.ahead.drop a.skipped = front ++ stop :: rest)
    (hk : front.length < k) :
    readLine env live k a s = some (s, ⟨front, front.length⟩) := by
  induction k generalizing front a with
  | zero => cases hk
  | succ k ih =>
      unfold Parse.readLine
      rw [h.lookAt]
      dsimp only
      cases front with
      | nil =>
          rw [peekAhead_of_drop hahead]
          have hend : (stop.isEof || stop.kind == .eol) = true := by
            rcases hstop with hs | hs
            · rw [hs]
              exact Bool.or_true _
            · rw [hs]
              rfl
          rw [if_pos hend]
          rfl
      | cons t front =>
          obtain ⟨hne, hkind, htilde⟩ := hfront t List.mem_cons_self
          rw [peekAhead_of_drop hahead, hne, beq_false_of_ne hkind, htilde]
          have hnext : s.source.cursor.ahead.drop a.next.skipped
              = front ++ stop :: rest := by
            show s.source.cursor.ahead.drop (a.skipped + 1) = _
            rw [← List.drop_drop, hahead]
            rfl
          rw [Bool.or_false, Bool.false_and, if_neg Bool.false_ne_true,
            if_neg Bool.false_ne_true,
            ih (fun u hu => hfront u (List.mem_cons_of_mem _ hu)) hnext
              (Nat.lt_of_succ_lt_succ hk)]
          rfl

end Operands

-- ================================================================== runs

/-- A run that has more steps than tokens ahead goes on from `s'` as it goes
on from `s`. -/
def Leads (env : Environment) (s s' : State) : Prop :=
  ∀ m, s.run env (m + 1 + s.source.cursor.ahead.length)
    = s'.run env (m + 1 + s'.source.cursor.ahead.length)

namespace Leads

variable {env : Environment} {s s' s'' : State}

theorem refl (s : State) : Leads env s s := fun _ => rfl

theorem trans (h : Leads env s s') (h' : Leads env s' s'') :
    Leads env s s'' := fun m => (h m).trans (h' m)

end Leads

/-- The state that has moved on to the next token, `t`. -/
def State.moved (s : State) (t : Token) (rest : List Token) : State :=
  { s with source := { s.source with
      cursor := { s.source.cursor with
        passed := t :: s.source.cursor.passed, ahead := rest }
      expanded := s.source.expanded - 1 } }

section Steps

variable {env : Environment} {s s' : State} {t : Token} {rest : List Token}

theorem advance?_eq (h : s.source.cursor.ahead = t :: rest) :
    s.advance? = some (s.moved t rest) := by
  unfold State.advance? Cursor.advance?
  rw [h]
  rfl

/-- One step of a run, where the token is not the end mark and the step
itself leaves the stream as it is. -/
theorem leads_of_step (h : s.source.cursor.ahead = t :: rest)
    (ht : t.isEof = false)
    (hstep : ∀ k, rest.length < k →
      (s.moved t rest).step env k t = some s')
    (hrest : s'.source.cursor.ahead = rest) : Leads env s s' := by
  intro m
  rw [h, hrest, List.length_cons, ← Nat.add_assoc,
    run_next (advance?_eq h) ht]
  exact congrArg (Option.bind · _) (hstep _ (by omega))

/-- The end of a run. -/
theorem run_of_eof (h : s.source.cursor.ahead = [t]) (ht : t.isEof = true)
    (m : Nat) :
    s.run env (m + 1 + s.source.cursor.ahead.length)
      = some (s.moved t []) := by
  rw [h, List.length_singleton]
  exact Parse.run_eof (advance?_eq h) ht

end Steps

-- ================================================================ facing

/-- The state has still to read `ts`, where nothing is to be expanded. -/
structure Facing (s : State) (ts : List Token) : Prop where
  sound : Sound s
  plain : Plain s
  ahead : s.source.cursor.ahead = ts

namespace Facing

variable {env : Environment} {s u : State} {t : Token} {more : List Token}

theorem moved (h : Facing s (t :: more)) : Sound (s.moved t more) :=
  (advance_keeps (advance?_eq h.ahead)).sound h.sound

theorem moved_plain (h : Facing s (t :: more)) : Plain (s.moved t more) :=
  ⟨fun x hx => h.plain.ahead x (by
    rw [h.ahead]
    exact List.mem_cons_of_mem _ hx), h.plain.beyond⟩

/-- One token is read, to the state `u` before the next one is expanded. -/
theorem step (h : Facing s (t :: more)) (ht : t.isEof = false)
    (hstep : ∀ k, more.length < k →
      (s.moved t more).step env k t = some (u.expandNext env))
    (hcursor : u.source.cursor = (s.moved t more).source.cursor) :
    ∃ n, Leads env s (u.expandedTo n) ∧ Facing (u.expandedTo n) more := by
  have hplain : Plain u := by
    refine ⟨?_, ?_⟩
    · rw [hcursor]
      exact h.moved_plain.ahead
    · rw [hcursor]
      exact h.plain.beyond
  obtain ⟨n, hn⟩ := hplain.expandNext env
  have hahead : (u.expandedTo n).source.cursor.ahead = more := by
    show u.source.cursor.ahead = more
    rw [hcursor]
    rfl
  have hsound := h.moved.step (hstep _ (Nat.lt_succ_self _))
  rw [hn] at hsound
  refine ⟨n, leads_of_step h.ahead ht ?_ hahead,
    ⟨hsound, hplain.expandedTo n, hahead⟩⟩
  intro k hk
  rw [hstep k hk, hn]

/-- A token that is looked at. -/
theorem look (h : Facing s (t :: more)) (hskip : s.source.skip = 0)
    (ht : t.isEof = false)
    (hlook : ∀ k, more.length < k → ∃ o,
      ((s.moved t more).observe t false).2.look env k t
          ((s.moved t more).observe t false).1 = some o ∧ o.state = u)
    (hcursor : u.source.cursor = (s.moved t more).source.cursor) :
    ∃ n, Leads env s (u.expandedTo n) ∧ Facing (u.expandedTo n) more := by
  refine h.step ht (fun k hk => ?_) hcursor
  obtain ⟨o, ho, rfl⟩ := hlook k hk
  have hzero : (s.moved t more).source.skip = 0 := hskip
  unfold State.step
  simp only [hzero, Nat.lt_irrefl, decide_false, Bool.false_eq_true, if_false,
    ho]
  rfl

/-- A token that is passed over: the state is only observed. -/
theorem pass (h : Facing s (t :: more)) {k : Nat}
    (hskip : s.source.skip = k + 1) (ht : t.isEof = false)
    (hu : u = { ((s.moved t more).observe t true).2 with
      source := { (s.moved t more).source with skip := k } }) :
    ∃ n, Leads env s (u.expandedTo n) ∧ Facing (u.expandedTo n) more := by
  have hmoved : (s.moved t more).source.skip = k + 1 := hskip
  have hsource : ((s.moved t more).observe t true).2.source
      = (s.moved t more).source := by
    unfold State.observe
    cases t.kind <;> rfl
  refine h.step ht (fun k _ => ?_) ?_
  · unfold State.step
    rw [hmoved, hu]
    simp [hsource, hmoved]
  · rw [hu]

end Facing

-- ================================================================= start

/-- A parse starts before its first token, with nothing to expand. -/
theorem facing_start (env : Environment) (cache : TokenCache) {text : String}
    (path : Option String) (hplain : ∀ t ∈ tokenize text, IsPlain t) :
    Facing (.start env cache text path) (tokenize text)
      ∧ ∃ n, State.start env cache text path
        = (State.opened cache text path).expandedTo n := by
  have hopened : Plain (.opened cache text path) := by
    refine ⟨hplain, ?_⟩
    show IsPlain (((tokenize text).getLast?.filter (·.isEof)).getD
      (Token.eof .origin 0))
    cases hlast : (tokenize text).getLast?.filter (·.isEof) with
    | none => exact ⟨nofun, nofun⟩
    | some t =>
        obtain ⟨hmem, -⟩ := Option.filter_eq_some_iff.1 hlast
        exact hplain t (List.mem_of_getLast? hmem)
  obtain ⟨n, hn⟩ := hopened.expandAt env .nearest
  obtain ⟨m, hm⟩ := (hopened.expandedTo n).expandAt env Ahead.nearest.next
  have hstart : State.start env cache text path
      = (State.opened cache text path).expandedTo m := by
    unfold State.start
    rw [hn, hm]
    rfl
  refine ⟨⟨.start env cache text path, ?_, ?_⟩, m, hstart⟩
  · rw [hstart]
    exact hopened.expandedTo m
  · rw [hstart]
    rfl

end AblOutline.Parse
