/-
Branches of `&IF` as chains, and the scopes that stand for them. A chain is an
`&IF` with the branches that have followed it, each with the condition that
opens it. Told that way, which branch is taken is plain: in a chain that was
entered live, the first one whose condition holds, and no other ever
(`BranchChain.taken?`).

The open scopes know less of a chain: whether its current branch is taken, and
whether one was. `Tracks` relates the two. Each operation on the branches of
the open scopes follows what the directive does to the chains, and closing or
opening any other scope, wherever it stands, does nothing to them.
-/
import AblOutline.Nesting.Closing

namespace AblOutline

-- ================================================================ chains

/-- A directive of branches, its condition told by whether it holds. -/
inductive BranchEvent where
  | ifThen (holds : Bool)
  | elseIf (holds : Bool)
  | otherwise
  | endIf
deriving DecidableEq, Repr

/-- An `&IF` that is open, with its branches so far. -/
structure BranchChain where
  /-- All branches around it were taken when it began. -/
  live : Bool
  /-- What opened the first branch and each further one: whether its
  condition holds. `&ELSE` is a condition that always holds. -/
  conditions : List Bool
deriving DecidableEq, Repr

namespace BranchChain

/-- The branch that is taken: the first whose condition holds, where the
chain was entered live. -/
def taken? (c : BranchChain) : Option Nat :=
  if c.live then c.conditions.findIdx? id else none

/-- The branch that is being read is the one taken. -/
def isActive (c : BranchChain) : Bool :=
  c.taken? == some (c.conditions.length - 1)

/-- A condition held already. -/
def isSpent (c : BranchChain) : Bool := c.conditions.any id

/-- The next branch will be taken if its condition holds. -/
def mayTurn (c : BranchChain) : Bool := c.live && !c.isSpent

/-- The chain on its next branch. -/
def next (c : BranchChain) (holds : Bool) : BranchChain :=
  { c with conditions := c.conditions ++ [holds] }

/-- The chain as it was when branch `i` was read. -/
def upTo (c : BranchChain) (i : Nat) : BranchChain :=
  { c with conditions := c.conditions.take (i + 1) }

end BranchChain

/-- The chains that are open, the innermost first. -/
abbrev Chains := List BranchChain

namespace Chains

/-- Every chain is on a branch that is taken. -/
def allActive (cs : Chains) : Bool := cs.all (·.isActive)

/-- What a directive does to the chains; nothing when it wants an open one
and none is. -/
def read? : Chains → BranchEvent → Option Chains
  | cs, .ifThen holds => some (⟨allActive cs, [holds]⟩ :: cs)
  | c :: cs, .elseIf holds => some (c.next holds :: cs)
  | c :: cs, .otherwise => some (c.next true :: cs)
  | _ :: cs, .endIf => some cs
  | [], .elseIf _ | [], .otherwise | [], .endIf => none

/-- The chains after a directive; one that wants an open chain does nothing
where none is. -/
def after (cs : Chains) (e : BranchEvent) : Chains := (cs.read? e).getD cs

/-- The chains after some directives, the first of them read first. -/
def ofEvents (es : List BranchEvent) : Chains := es.foldl after []

theorem ofEvents_concat (es : List BranchEvent) (e : BranchEvent) :
    ofEvents (es ++ [e]) = (ofEvents es).after e := by
  rw [ofEvents, List.foldl_append]
  rfl

end Chains

namespace BranchChain

/-- The next branch is the one taken if none was and its condition holds. -/
theorem isActive_next (c : BranchChain) (holds : Bool) :
    (c.next holds).isActive = (c.mayTurn && holds) := by
  unfold isActive taken? mayTurn isSpent next
  cases hl : c.live with
  | false => simp
  | true =>
      cases hs : c.conditions.any id with
      | true =>
          -- one that holds stands before the last
          have hsome : (c.conditions.findIdx? id).isSome = true := by
            rw [List.findIdx?_isSome]
            exact hs
          obtain ⟨i, hi⟩ := Option.isSome_iff_exists.1 hsome
          obtain ⟨hlt, -⟩ := List.findIdx?_eq_some_iff_getElem.1 hi
          rw [if_pos rfl, List.findIdx?_append, hi]
          have hne : i ≠ c.conditions.length := Nat.ne_of_lt hlt
          simp [hne]
      | false =>
          have hnone : c.conditions.findIdx? id = none := by
            rw [← Option.not_isSome_iff_eq_none, List.findIdx?_isSome, hs]
            exact Bool.false_ne_true
          rw [if_pos rfl, List.findIdx?_append, hnone]
          cases holds <;> simp

theorem isActive_single (live holds : Bool) :
    (BranchChain.mk live [holds]).isActive = (live && holds) := by
  cases live <;> cases holds <;> rfl

@[simp] theorem isSpent_next (c : BranchChain) (holds : Bool) :
    (c.next holds).isSpent = (c.isSpent || holds) := by
  simp [isSpent, next]

/-- A branch that is taken is one of a chain entered live. -/
theorem live_of_isActive {c : BranchChain} (h : c.isActive = true) :
    c.live = true := by
  unfold isActive taken? at h
  cases hl : c.live with
  | true => rfl
  | false =>
      rw [hl] at h
      cases h

/-- A branch of a chain was taken when it was read if it is the one that is
taken: the first whose condition holds, where the chain was entered live. -/
theorem upTo_isActive_iff {c : BranchChain} {i : Nat}
    (hi : i < c.conditions.length) :
    (c.upTo i).isActive = true ↔ c.taken? = some i := by
  have hlen : (c.upTo i).conditions.length - 1 = i := by
    simp only [upTo, List.length_take]
    omega
  unfold isActive taken?
  show ((if c.live then _ else none) == some _) = true ↔ _
  rw [beq_iff_eq, hlen]
  cases c.live with
  | false => exact Iff.rfl
  | true =>
      rw [if_pos rfl, if_pos rfl]
      show (c.conditions.take (i + 1)).findIdx? id = some i ↔ _
      rw [List.findIdx?_eq_some_iff_getElem, List.findIdx?_eq_some_iff_getElem]
      constructor
      · rintro ⟨hlt, hholds, hbefore⟩
        refine ⟨hi, ?_, fun j hj => ?_⟩
        · rw [List.getElem_take] at hholds
          exact hholds
        · have := hbefore j hj
          rw [List.getElem_take] at this
          exact this
      · rintro ⟨hlt, hholds, hbefore⟩
        have hlt' : i < (c.conditions.take (i + 1)).length := by
          rw [List.length_take]
          omega
        refine ⟨hlt', ?_, fun j hj => ?_⟩
        · rw [List.getElem_take]
          exact hholds
        · rw [List.getElem_take]
          exact hbefore j hj

end BranchChain

-- ============================================================== tracking

/-- The open scopes stand for the chains: each `&IF` among them for one,
which was entered live if all those around it are on branches taken. -/
inductive Tracks : List OpenScope → Chains → Prop where
  | nil : Tracks [] []
  | other {o : OpenScope} {scopes : List OpenScope} {cs : Chains}
      (ho : o.scope.isConditional = false) (h : Tracks scopes cs) :
      Tracks (o :: scopes) cs
  | chain {o : OpenScope} {scopes : List OpenScope} {cs : Chains}
      {c : BranchChain} {opener : Token} {taken : Bool}
      (ho : o.scope = .conditional opener c.isActive taken)
      (ht : c.live = true → taken = c.isSpent)
      (hl : c.live = cs.allActive) (h : Tracks scopes cs) :
      Tracks (o :: scopes) (c :: cs)

namespace Tracks

variable {scopes within around : List OpenScope} {cs : Chains}

/-- A scope that is no `&IF` is as if on a branch taken. -/
theorem isActive_of_not_conditional {o : OpenScope}
    (h : o.scope.isConditional = false) : o.scope.isActive = true := by
  cases hs : o.scope with
  | conditional opener active taken => rw [hs] at h; cases h
  | file item => rfl
  | routine item kind keyword opener => rfl
  | suspended item opener => rfl
  | block opener keyword label => rfl

/-- The branches of all scopes are taken if those of all chains are. -/
theorem allActive_eq (h : Tracks scopes cs) :
    Nesting.allActive scopes = cs.allActive := by
  unfold Nesting.allActive Chains.allActive
  induction h with
  | nil => rfl
  | other ho _ ih =>
      rw [List.all_cons, ih, isActive_of_not_conditional ho, Bool.true_and]
  | chain ho _ _ _ ih =>
      rw [List.all_cons, List.all_cons, ih, ho]
      rfl

/-- Some open `&IF` is on a branch not taken if some chain is. -/
theorem inFalseBranch_eq {n : Nesting} (h : Tracks n.scopes cs) :
    n.inFalseBranch = !cs.allActive := by
  rw [← h.allActive_eq]
  unfold Nesting.inFalseBranch Nesting.allActive
  rw [List.not_all_eq_any_not]

/-- A chain was entered live if those around it are on branches taken. -/
theorem live_eq {inner outer : Chains} {c : BranchChain}
    (h : Tracks scopes (inner ++ c :: outer)) : c.live = outer.allActive := by
  generalize hcs : inner ++ c :: outer = all at h
  induction h generalizing inner with
  | nil => simp at hcs
  | other _ _ ih => exact ih hcs
  | chain _ _ hl _ ih =>
      cases inner with
      | nil =>
          obtain ⟨rfl, rfl⟩ := List.cons.inj hcs
          exact hl
      | cons d inner => exact ih (List.cons.inj hcs).2

/-- No `&IF` is open if no chain is. -/
theorem of_nil (h : Tracks scopes []) :
    ∀ o ∈ scopes, o.scope.isConditional = false := by
  generalize hcs : ([] : Chains) = cs at h
  induction h with
  | nil => nofun
  | other ho _ ih =>
      intro o hmem
      rcases List.mem_cons.1 hmem with rfl | hmem
      · exact ho
      · exact ih hcs o hmem
  | chain => cases hcs

/-- Scopes that are no `&IF` may stand before any others. -/
theorem append (h : Tracks around cs)
    (hw : ∀ o ∈ within, o.scope.isConditional = false) :
    Tracks (within ++ around) cs := by
  induction within with
  | nil => exact h
  | cons o within ih =>
      exact .other (hw o List.mem_cons_self)
        (ih fun x hx => hw x (List.mem_cons_of_mem _ hx))

/-- Closing a scope that is no `&IF`, wherever it stands. -/
theorem remove {o : OpenScope} (ho : o.scope.isConditional = false)
    (h : Tracks (within ++ o :: around) cs) : Tracks (within ++ around) cs := by
  induction within generalizing cs with
  | nil =>
      cases h with
      | other _ h => exact h
      | chain hc => rw [hc] at ho; cases ho
  | cons x within ih =>
      cases h with
      | other hx h => exact .other hx (ih h)
      | chain hx ht hl h => exact .chain hx ht hl (ih h)

/-- The innermost `&IF` stands for the innermost chain. -/
theorem innermost {c : BranchChain} (h : Tracks scopes (c :: cs)) :
    ∃ within o around opener taken,
      Nesting.splitScopes Scope.isConditional scopes = some (within, o, around)
        ∧ scopes = within ++ o :: around
        ∧ (∀ x ∈ within, x.scope.isConditional = false)
        ∧ o.scope = .conditional opener c.isActive taken
        ∧ (c.live = true → taken = c.isSpent) ∧ c.live = cs.allActive
        ∧ Tracks around cs := by
  generalize hcs : c :: cs = all at h
  induction h with
  | nil => cases hcs
  | @other o scopes _ ho _ ih =>
      obtain ⟨within, x, around, opener, taken, hs, he, hw, hrest⟩ := ih hcs
      refine ⟨o :: within, x, around, opener, taken, ?_, ?_, ?_, hrest⟩
      · rw [Nesting.splitScopes, if_neg (by rw [ho]; exact Bool.false_ne_true),
          hs]
        rfl
      · rw [he]
        rfl
      · intro y hy
        rcases List.mem_cons.1 hy with rfl | hy
        · exact ho
        · exact hw y hy
  | @chain o scopes _ _ opener taken ho ht hl h =>
      cases hcs
      refine ⟨[], o, scopes, opener, taken, ?_, rfl, fun _ hx => ?_, ho, ht, hl,
        h⟩
      · rw [Nesting.splitScopes, ho]
        rfl
      · cases hx

/-- No scope is the innermost `&IF` where no chain is open. -/
theorem innermost_nil (h : Tracks scopes []) :
    Nesting.splitScopes Scope.isConditional scopes = none := by
  have hno := h.of_nil
  clear h
  induction scopes with
  | nil => rfl
  | cons o scopes ih =>
      have ho := hno o List.mem_cons_self
      rw [Nesting.splitScopes, if_neg (by rw [ho]; exact Bool.false_ne_true),
        ih fun x hx => hno x (List.mem_cons_of_mem _ hx)]
      rfl

end Tracks

-- ============================================================ operations

namespace Nesting

variable {n : Nesting} {cs : Chains} {c : BranchChain}

/-- A further branch may be taken where the innermost chain may turn. -/
theorem mayTurn?_eq (h : Tracks n.scopes (c :: cs)) :
    n.mayTurn? = some c.mayTurn := by
  obtain ⟨within, o, around, opener, taken, hs, -, -, ho, ht, hl, ha⟩ :=
    h.innermost
  unfold mayTurn? innermost?
  rw [hs]
  show some (allActive around && !wasTaken o.scope) = _
  rw [ha.allActive_eq, ← hl, ho]
  unfold BranchChain.mayTurn
  cases hlive : c.live with
  | false => rfl
  | true =>
      rw [ht hlive]
      rfl

theorem mayTurn?_eq_none (h : Tracks n.scopes []) : n.mayTurn? = none := by
  unfold mayTurn? innermost?
  rw [h.innermost_nil]
  rfl

/-- Opening an `&IF` begins a chain. -/
theorem tracks_openIf (h : Tracks n.scopes cs) (opener : Token) (line : Nat)
    (holds : Bool) :
    Tracks (n.openIf opener line (cs.allActive && holds)).scopes
      (⟨cs.allActive, [holds]⟩ :: cs) := by
  have hscope : (OpenScope.mk (.conditional opener (cs.allActive && holds)
      (cs.allActive && holds)) line).scope
      = .conditional opener (BranchChain.mk cs.allActive [holds]).isActive
        (cs.allActive && holds) := by
    rw [BranchChain.isActive_single]
  refine .chain hscope ?_ rfl h
  intro hl
  have hl' : cs.allActive = true := hl
  rw [hl']
  simp [BranchChain.isSpent]

/-- Turning the innermost `&IF` is the next branch of its chain, where
`holds` is its condition. -/
theorem tracks_turn (h : Tracks n.scopes (c :: cs)) {active spent : Bool}
    (holds : Bool) (ha : active = (c.mayTurn && holds))
    (hsp : c.live = true → (c.isSpent || spent) = (c.isSpent || holds)) :
    Tracks (n.turn active spent).scopes (c.next holds :: cs) := by
  obtain ⟨within, o, around, opener, taken, hs, -, hw, ho, ht, hl, htr⟩ :=
    h.innermost
  have hscope : turned active spent o.scope
      = .conditional opener (c.next holds).isActive (taken || spent) := by
    rw [BranchChain.isActive_next, ← ha, ho]
    rfl
  unfold turn innermost?
  rw [hs]
  refine Tracks.append (.chain hscope ?_ hl htr) hw
  intro hlive
  rw [ht hlive, hsp hlive, BranchChain.isSpent_next]

/-- Closing the innermost `&IF` ends its chain and leaves all other scopes
open. -/
theorem endIf?_eq (h : Tracks n.scopes (c :: cs)) :
    ∃ within o around, n.scopes = within ++ o :: around
      ∧ o.scope.isConditional = true
      ∧ (∀ x ∈ within, x.scope.isConditional = false)
      ∧ n.endIf? = some ⟨within ++ around⟩
      ∧ Tracks (within ++ around) cs := by
  obtain ⟨within, o, around, opener, taken, hs, he, hw, ho, -, -, ha⟩ :=
    h.innermost
  refine ⟨within, o, around, he, by rw [ho]; rfl, hw, ?_, ha.append hw⟩
  unfold endIf? innermost?
  rw [hs]
  rfl

theorem endIf?_eq_none (h : Tracks n.scopes []) : n.endIf? = none := by
  unfold endIf? innermost?
  rw [h.innermost_nil]
  rfl

end Nesting

end AblOutline
