/-
Reading the source in step. Expansion and directives read the source, the
branches and the environment but for its directory, so two parses in step that
know different names expand, define and branch alike, pace by pace. The files
that are asked for, the values that references have and the conditions that
hold are the same in both.
-/
import AblOutline.Proofs.Layers.Paces
import Mathlib.Data.Option.Defs

namespace AblOutline

/-- The environment where other names are known: by another directory, and with
unknown words told or not. -/
def Environment.knowing (env : Environment) (directory : Directory)
    (matchKnownWords : Bool) : Environment :=
  { env with directory, options := { env.options with matchKnownWords } }

-- ================================================================ branches

namespace Nesting

variable {n : Nesting}

/-- The innermost `&IF`, where the branches begin. -/
theorem innermost?_branches :
    (n.branches = [] ∧ n.innermost? Scope.isConditional = none)
      ∨ ∃ within found around active taken,
        n.innermost? Scope.isConditional = some (within, found, around)
          ∧ found.scope.branch? = some (active, taken)
          ∧ within.filterMap (·.scope.branch?) = []
          ∧ n.branches = (active, taken) :: branches ⟨around⟩ := by
  obtain ⟨scopes⟩ := n
  unfold innermost? branches
  induction scopes with
  | nil => exact .inl ⟨rfl, rfl⟩
  | cons o scopes ih =>
      cases ho : o.scope.isConditional with
      | true =>
          right
          obtain ⟨scope, line⟩ := o
          cases scope with
          | conditional opener active taken =>
              exact ⟨[], _, scopes, active, taken, rfl, rfl, rfl, rfl⟩
          | _ => cases ho
      | false =>
          have hbranch : o.scope.branch? = none := by
            obtain ⟨scope, line⟩ := o
            cases scope <;> first | rfl | cases ho
          simp only [splitScopes, ho, Bool.false_eq_true, if_false,
            List.filterMap_cons, hbranch]
          rcases ih with ⟨hnil, hnone⟩
            | ⟨within, found, around, active, taken, hsplit, hfound, hwithin,
              he⟩
          · exact .inl ⟨hnil, by rw [hnone]; rfl⟩
          · refine .inr ⟨o :: within, found, around, active, taken, ?_, hfound,
              ?_, he⟩
            · rw [hsplit]
              rfl
            · rw [List.filterMap_cons, hbranch]
              exact hwithin

theorem allActive_branches (scopes : List OpenScope) :
    allActive scopes = (branches ⟨scopes⟩).all (·.1) := by
  unfold allActive branches
  induction scopes with
  | nil => rfl
  | cons o scopes ih =>
      obtain ⟨scope, line⟩ := o
      rw [List.all_cons, ih]
      cases scope <;> rfl

/-- Whether a branch may be turned to is told by the branches. -/
theorem mayTurn?_branches :
    n.mayTurn? = n.branches.head?.map fun b =>
      n.branches.tail.all (·.1) && !b.2 := by
  unfold mayTurn?
  rcases innermost?_branches (n := n) with ⟨hnil, hnone⟩
    | ⟨within, found, around, active, taken, hsplit, hfound, -, he⟩
  · rw [hnil, hnone]
    rfl
  · have htaken : wasTaken found.scope = taken := by
      cases hs : found.scope <;> simp_all [Scope.branch?, wasTaken]
    rw [hsplit, he]
    dsimp only [Option.map_some]
    rw [htaken, allActive_branches]
    rfl

theorem branches_turn (active spent : Bool) :
    (n.turn active spent).branches = match n.branches with
      | [] => []
      | b :: around => (active, b.2 || spent) :: around := by
  unfold turn
  rcases innermost?_branches (n := n) with ⟨hnil, hnone⟩
    | ⟨within, found, around, before, taken, hsplit, hfound, hwithin, he⟩
  · rw [hnone, hnil]
  · have hturned : (turned active spent found.scope).branch?
        = some (active, taken || spent) := by
      cases hs : found.scope <;> simp_all [Scope.branch?, turned]
    rw [hsplit, he]
    dsimp only
    rw [branches, List.filterMap_append, hwithin, List.filterMap_cons, hturned]
    rfl

theorem branches_endIf? :
    n.endIf?.map branches = n.branches.tail? := by
  unfold endIf?
  rcases innermost?_branches (n := n) with ⟨hnil, hnone⟩
    | ⟨within, found, around, before, taken, hsplit, hfound, hwithin, he⟩
  · rw [hnone, hnil]
    rfl
  · rw [hsplit, he, Option.map_some, Option.map_some, branches,
      List.filterMap_append, hwithin]
    rfl

end Nesting

namespace Parse

open Preprocess

-- ============================================================== composing

/-- Two results, or none of both, to which two parses keep pace. -/
abbrev Together {α : Type} (state : α → State) (s s' : State) :
    Option α → Option α → Prop :=
  Option.Rel fun a a' => Paces (s, s') (state a, state a')

/-- So for operands, which are the same. -/
abbrev ReadTogether (s s' : State) :
    Option (State × Operands) → Option (State × Operands) → Prop :=
  Option.Rel fun p p' => Paces (s, s') (p.1, p'.1) ∧ p.2 = p'.2

theorem rel_cases {α : Type} {R : α → α → Prop} {x x' : Option α}
    (h : Option.Rel R x x') : (x = none ∧ x' = none)
      ∨ ∃ a a', x = some a ∧ x' = some a' ∧ R a a' := by
  cases h with
  | none => exact .inl ⟨rfl, rfl⟩
  | some ha => exact .inr ⟨_, _, rfl, rfl, ha⟩

theorem rel_mono {α : Type} {R S : α → α → Prop} {x x' : Option α}
    (h : Option.Rel R x x') (hRS : ∀ a a', R a a' → S a a') :
    Option.Rel S x x' := by
  cases h with
  | none => exact .none
  | some ha => exact .some (hRS _ _ ha)

theorem rel_map {α β : Type} {R : α → α → Prop} {S : β → β → Prop}
    {f f' : α → β} {x x' : Option α} (h : Option.Rel R x x')
    (hf : ∀ a a', R a a' → S (f a) (f' a')) :
    Option.Rel S (x.map f) (x'.map f') := by
  cases h with
  | none => exact .none
  | some ha => exact .some (hf _ _ ha)

theorem rel_bind {α β : Type} {R : α → α → Prop} {S : β → β → Prop}
    {f f' : α → Option β} {x x' : Option α} (h : Option.Rel R x x')
    (hf : ∀ a a', R a a' → Option.Rel S (f a) (f' a')) :
    Option.Rel S (x.bind f) (x'.bind f') := by
  cases h with
  | none => exact .none
  | some ha => exact hf _ _ ha

variable {s s' : State} (h : InStep s s')

-- ============================================================== expansion

section Expansion

include h

theorem substitute_paces (platform : Platform) (a : Ahead) (t : Token) :
    Paces (s, s') (s.substitute platform a t, s'.substitute platform a t) := by
  have hfound := Paces.found h (referenceName t.text) t
    (fun source => .nameUse (source.referenceValue? platform
      (referenceName t.text) t).isSome) fun _ => rfl
  have hread := Paces.read (h.paces hfound) fun source =>
    let after := source.afterReference (referenceName t.text) t.owner
    { after with cursor := after.cursor.splice a (s.valueTokens platform t) }
  have htokens : s'.valueTokens platform t = s.valueTokens platform t := by
    unfold State.valueTokens
    rw [h.source]
  unfold State.substitute
  dsimp only
  rw [htokens]
  exact hfound.trans hread

theorem substituteFirst_paces (platform : Platform) (a : Ahead)
    (ts : List Token) :
    Paces (s, s') ((s.substituteFirst platform a ts).1,
        (s'.substituteFirst platform a ts).1)
      ∧ (s.substituteFirst platform a ts).2
        = (s'.substituteFirst platform a ts).2 := by
  induction ts generalizing s s' with
  | nil => exact ⟨.refl, rfl⟩
  | cons t ts ih =>
      have hfirst := substitute_paces h platform a t
      have htokens : s'.valueTokens platform t = s.valueTokens platform t := by
        unfold State.valueTokens
        rw [h.source]
      unfold State.substituteFirst
      dsimp only
      rw [htokens]
      split
      · obtain ⟨hrest, hput⟩ := ih (h.paces hfirst)
        exact ⟨hfirst.trans hrest, hput⟩
      · exact ⟨hfirst, rfl⟩

theorem settle_paces (platform : Platform) (a : Ahead) (depth : Nat) :
    Paces (s, s') (s.settle platform a depth, s'.settle platform a depth) := by
  induction depth generalizing s s' with
  | zero => exact .refl
  | succ depth ih =>
      have hrefs : s'.referencesAt a = s.referencesAt a := by
        unfold State.referencesAt
        rw [h.source]
      obtain ⟨hfirst, hput⟩ :=
        substituteFirst_paces h platform a (s.referencesAt a)
      unfold State.settle
      rw [hrefs]
      cases hs : s.substituteFirst platform a (s.referencesAt a) with
      | mk u more =>
          cases hs' : s'.substituteFirst platform a (s.referencesAt a) with
          | mk u' more' =>
              rw [hs, hs'] at hfirst hput
              obtain rfl : more = more' := hput
              cases more with
              | true => exact hfirst.trans (ih (h.paces hfirst))
              | false => exact hfirst

variable (env : Environment)

/-- An include directive brings the same file into both. -/
theorem includeAt_paces (a : Ahead) (t : Token) :
    Paces (s, s') (s.includeAt env a t, s'.includeAt env a t) := by
  unfold State.includeAt
  rw [← h.source]
  split
  · exact .refl
  · cases IncludeCall.parse? t.text with
    | none => exact .refl
    | some call =>
        dsimp only
        cases hopen : State.openInclude env.resolver s.source call.file
            t.owner with
        | mk path rest =>
            obtain ⟨tokens, source⟩ := rest
            have hread : Paces (s, s')
                ({ s with source }, { s' with source }) :=
              .single (.read s s' source)
            dsimp only
            cases tokens with
            | none =>
                exact hread.trans (.single (.found _ _ call.file t _ rfl))
            | some tokens =>
                exact ((hread.trans (.single (.read _ _ _))).trans
                  (.single (.found _ _ call.file t _ rfl))).trans
                  (.single (.read _ _ _))

theorem expandAt_paces (a : Ahead) (includes : Bool) :
    Paces (s, s') (s.expandAt env a includes, s'.expandAt env a includes) := by
  have hexpanded : s'.isExpanded a = s.isExpanded a := by
    unfold State.isExpanded
    rw [h.source]
  have hsettle := settle_paces h env.options.platform a
    env.options.maxExpansionDepth
  unfold State.expandAt
  rw [hexpanded]
  split
  · exact .refl
  · dsimp only
    split
    · have hsettled := h.paces hsettle
      generalize s.settle env.options.platform a _ = u at hsettle hsettled ⊢
      generalize s'.settle env.options.platform a _ = u' at hsettle hsettled ⊢
      have hinclude : Paces (u, u')
          (u.expandInclude env a, u'.expandInclude env a) := by
        unfold State.expandInclude
        dsimp only
        rw [← hsettled.source]
        split
        · exact includeAt_paces hsettled env a _
        · exact .refl
      exact (hsettle.trans hinclude).trans
        (Paces.read (hsettled.paces hinclude) fun source =>
          { source with expanded := max source.expanded a.distance })
    · exact hsettle

end Expansion

-- =============================================================== operands

section Operands

variable (env : Environment) (d : Directory) (b : Bool)
include h

theorem lookAt_paces (live : Bool) (a : Ahead) :
    Paces (s, s')
      (lookAt env live a s, lookAt (env.knowing d b) live a s') := by
  unfold lookAt
  split
  · exact expandAt_paces h env a false
  · exact .refl

theorem readCondition_together (live : Bool) (steps : Nat) (a : Ahead) :
    ReadTogether s s' (readCondition env live steps a s)
      (readCondition (env.knowing d b) live steps a s') := by
  induction steps generalizing a s s' with
  | zero => exact .none
  | succ steps ih =>
      have hlook := lookAt_paces h env d b live a
      have hlooked := h.paces hlook
      unfold readCondition
      dsimp only
      generalize lookAt env live a s = u at hlook hlooked ⊢
      generalize lookAt (env.knowing d b) live a s' = u' at hlook hlooked ⊢
      rw [← hlooked.source]
      split
      · exact .some ⟨hlook, rfl⟩
      · split
        · exact .some ⟨hlook, rfl⟩
        · refine rel_map (ih hlooked a.next) fun p p' hp => ?_
          exact ⟨hlook.trans hp.1, by rw [hp.2]⟩

theorem readLine_together (live : Bool) (steps : Nat) (a : Ahead) :
    ReadTogether s s' (readLine env live steps a s)
      (readLine (env.knowing d b) live steps a s') := by
  induction steps generalizing a s s' with
  | zero => exact .none
  | succ steps ih =>
      have hlook := lookAt_paces h env d b live a
      have hlooked := h.paces hlook
      unfold readLine
      dsimp only
      generalize lookAt env live a s = u at hlook hlooked ⊢
      generalize lookAt (env.knowing d b) live a s' = u' at hlook hlooked ⊢
      rw [← hlooked.source]
      split
      · exact .some ⟨hlook, rfl⟩
      · split
        · refine rel_map (ih hlooked a.next.next) fun p p' hp => ?_
          exact ⟨hlook.trans hp.1, by rw [hp.2]⟩
        · refine rel_map (ih hlooked a.next) fun p p' hp => ?_
          exact ⟨hlook.trans hp.1, by rw [hp.2]⟩

omit h in
/-- The same operands are passed over. -/
theorem skipping_together {x x' : Option (State × Operands)}
    (h : InStep s s') (hx : ReadTogether s s' x x') :
    ReadTogether s s' (x.map fun p => (p.1.skipping p.2, p.2))
      (x'.map fun p => (p.1.skipping p.2, p.2)) := by
  refine rel_map hx fun p p' ⟨hp, ho⟩ => ⟨?_, ho⟩
  rw [← ho]
  exact hp.trans (Paces.read (h.paces hp) fun source =>
    { source with skip := p.2.count })

theorem takeCondition_together (live : Bool) (steps : Nat) :
    ReadTogether s s' (s.takeCondition env steps live)
      (s'.takeCondition (env.knowing d b) steps live) :=
  skipping_together h (readCondition_together h env d b live steps .nearest)

theorem takeLine_together (live : Bool) (steps : Nat) :
    ReadTogether s s' (s.takeLine env steps live)
      (s'.takeLine (env.knowing d b) steps live) :=
  skipping_together h (readLine_together h env d b live steps .nearest)

end Operands

-- ================================================================ branches

section Branches

variable (env : Environment) (d : Directory) (b : Bool) (steps : Nat)
  (t : Token)
include h

theorem rootLine_eq : s'.rootLine t = s.rootLine t := by
  unfold State.rootLine
  rw [h.source]

theorem holds_eq (condition : Operands) :
    s'.holds (env.knowing d b) condition t.owner
      = s.holds env condition t.owner := by
  unfold State.holds
  rw [h.source]
  rfl

theorem openIf_together :
    Together id s s' (s.openIf env steps t)
      (s'.openIf (env.knowing d b) steps t) := by
  unfold State.openIf State.inFalseBranch
  rw [h.inFalseBranch]
  refine rel_bind (takeCondition_together h env d b _ steps) ?_
  rintro ⟨u, o⟩ ⟨u', o'⟩ ⟨hp, ho⟩
  obtain rfl : o = o' := ho
  have hu : InStep u u' := h.paces hp
  refine .some (hp.tail (.branched u u' _ _ ?_))
  show _ :: _ = _ :: _
  rw [holds_eq hu env d b t]
  exact congrArg _ hu.branches

theorem turn_branches (active spent : Bool) :
    (s.nesting.turn active spent).branches
      = (s'.nesting.turn active spent).branches := by
  rw [Nesting.branches_turn, Nesting.branches_turn, h.branches]

theorem elseIf_together :
    Together id s s' (s.elseIf env steps t)
      (s'.elseIf (env.knowing d b) steps t) := by
  have hmay : s'.nesting.mayTurn? = s.nesting.mayTurn? := by
    rw [Nesting.mayTurn?_branches, Nesting.mayTurn?_branches, h.branches]
  unfold State.elseIf
  rw [hmay]
  cases s.nesting.mayTurn? with
  | none =>
      refine rel_map (takeCondition_together h env d b _ steps) ?_
      rintro ⟨u, o⟩ ⟨u', o'⟩ ⟨hp, -⟩
      exact hp.trans (Paces.both (.addErrorAt u _ t _ _)
        (.addErrorAt u' _ t _ _))
  | some live =>
      refine rel_bind (takeCondition_together h env d b _ steps) ?_
      rintro ⟨u, o⟩ ⟨u', o'⟩ ⟨hp, ho⟩
      obtain rfl : o = o' := ho
      have hu : InStep u u' := h.paces hp
      dsimp only
      rw [holds_eq hu env d b t]
      exact .some (hp.tail (.branched u u' _ _ (turn_branches hu _ _)))

theorem otherwise_paces :
    Paces (s, s') (s.otherwise t, s'.otherwise t) := by
  have hmay : s'.nesting.mayTurn? = s.nesting.mayTurn? := by
    rw [Nesting.mayTurn?_branches, Nesting.mayTurn?_branches, h.branches]
  unfold State.otherwise
  rw [hmay]
  cases s.nesting.mayTurn? with
  | none => exact .both (.addErrorAt s _ t _ _) (.addErrorAt s' _ t _ _)
  | some live => exact .single (.branched s s' _ _ (turn_branches h _ _))

theorem endIf_paces : Paces (s, s') (s.endIf t, s'.endIf t) := by
  have hend : s.nesting.endIf?.map Nesting.branches
      = s'.nesting.endIf?.map Nesting.branches := by
    rw [Nesting.branches_endIf?, Nesting.branches_endIf?, h.branches]
  unfold State.endIf
  cases hn : s.nesting.endIf? with
  | none =>
      cases hn' : s'.nesting.endIf? with
      | none => exact .both (.addErrorAt s _ t _ _) (.addErrorAt s' _ t _ _)
      | some n' =>
          rw [hn, hn'] at hend
          cases hend
  | some n =>
      cases hn' : s'.nesting.endIf? with
      | none =>
          rw [hn, hn'] at hend
          cases hend
      | some n' =>
          rw [hn, hn'] at hend
          exact .single (.branched s s' n n' (Option.some.inj hend))

end Branches

-- ============================================================= directives

section Directives

variable (env : Environment) (d : Directory) (b : Bool) (steps : Nat)
  (t : Token)
include h

theorem defineName_together (isGlobal : Bool) :
    Together Outcome.state s s' (s.defineName env steps t isGlobal)
      (s'.defineName (env.knowing d b) steps t isGlobal) := by
  refine rel_bind (takeLine_together h env d b true steps) ?_
  rintro ⟨u, o⟩ ⟨u', o'⟩ ⟨hp, ho⟩
  obtain rfl : o = o' := ho
  dsimp only
  cases o.first? with
  | none => exact .some hp
  | some name =>
      have hread := Paces.read (h.paces hp) fun source =>
        let value := o.textAfterFirst
        let definitions :=
          if isGlobal then source.definitions.defineGlobal name.text value
          else source.definitions.defineScoped name.owner name.text value
        { source with definitions }
      exact .some ((hp.trans hread).tail (.found _ _ name.text name _ rfl))

theorem undefineName_together :
    Together Outcome.state s s' (s.undefineName env steps t)
      (s'.undefineName (env.knowing d b) steps t) := by
  refine rel_bind (takeLine_together h env d b false steps) ?_
  rintro ⟨u, o⟩ ⟨u', o'⟩ ⟨hp, ho⟩
  obtain rfl : o = o' := ho
  dsimp only
  cases o.first? with
  | none => exact .some hp
  | some name =>
      have hread := Paces.read (h.paces hp) fun source =>
        let within := source.chain.lineage name.owner
        let definitions := source.definitions.undefine name.text within
        { source with definitions }
      exact .some ((hp.trans hread).tail (.found _ _ name.text name _ rfl))

theorem openSection_together :
    Together id s s' (s.openSection env steps t)
      (s'.openSection (env.knowing d b) steps t) := by
  refine rel_bind (takeLine_together h env d b false steps) ?_
  rintro ⟨u, o⟩ ⟨u', o'⟩ ⟨hp, ho⟩
  obtain rfl : o = o' := ho
  exact .some ((hp.tail (.found u u' _ t _ rfl)).trans
    (Paces.both (.openScope _ rfl t) (.openScope _ rfl t)))

omit h in
/-- Once its line is read, the end of a section is a matter of deeds. -/
theorem endSection_deeds {p : State × Operands}
    (hline : s.takeLine env steps false = some p) :
    ∃ o, s.endSection env steps t = some o ∧ Deeds p.1 o.state := by
  obtain ⟨u, operands⟩ := p
  unfold State.endSection
  rw [hline, Option.bind_eq_bind, Option.bind_some]
  dsimp only
  split
  · exact ⟨_, rfl, .addErrorAt u _ t _ _⟩
  · rename_i scope nesting hend
    have hclosed : Deeds u { u with nesting } :=
      .single (.nested u nesting (Nesting.branches_endSection? hend))
    split
    · exact ⟨_, rfl, hclosed⟩
    · split
      · rename_i hline
        exact ⟨_, rfl, hclosed.trans (Deeds.ended hline)⟩
      · exact ⟨_, rfl, hclosed⟩

theorem endSection_together :
    Together Outcome.state s s' (s.endSection env steps t)
      (s'.endSection (env.knowing d b) steps t) := by
  rcases rel_cases (takeLine_together h env d b false steps)
    with ⟨hx, hx'⟩ | ⟨p, p', hx, hx', hp⟩
  · unfold State.endSection
    rw [hx, hx']
    exact .none
  · obtain ⟨o, ho, hdeeds⟩ := endSection_deeds env steps t hx
    obtain ⟨o', ho', hdeeds'⟩ := endSection_deeds _ steps t hx'
    rw [ho, ho']
    exact .some (hp.1.trans (Paces.both hdeeds hdeeds'))

/-- A line that is passed over. -/
theorem passLine_together :
    Together Outcome.state s s'
      (((s.takeLine env steps false).map (·.1)).map fun s => { state := s })
      (((s'.takeLine (env.knowing d b) steps false).map (·.1)).map
        fun s => { state := s }) :=
  rel_map (rel_map (takeLine_together h env d b false steps) fun _ _ hp => hp.1)
    fun _ _ (hp : Paces (s, s') (_, _)) => hp

/-- A directive does the same to what both preprocess. -/
theorem directive_together :
    Together Outcome.state s s' (s.directive env steps t)
      (s'.directive (env.knowing d b) steps t) := by
  have hfaultless : ∀ {x x' : Option State}, Together id s s' x x' →
      Together Outcome.state s s' (x.map fun s => { state := s })
        (x'.map fun s => { state := s }) :=
    fun hx => rel_map hx fun _ _ hp => hp
  unfold State.directive State.inFalseBranch
  rw [h.inFalseBranch]
  dsimp only
  cases Directive.ofWord t.text with
  | ifThen => exact hfaultless (openIf_together h env d b steps t)
  | elseIf => exact hfaultless (elseIf_together h env d b steps t)
  | otherwise => exact .some (otherwise_paces h t)
  | endIf => exact .some (endIf_paces h t)
  | thenPart => exact .some .refl
  | other => exact .some .refl
  | globalDefine =>
      dsimp only
      split
      · exact passLine_together h env d b steps
      · exact defineName_together h env d b steps t true
  | scopedDefine =>
      dsimp only
      split
      · exact passLine_together h env d b steps
      · exact defineName_together h env d b steps t false
  | undefine =>
      dsimp only
      split
      · exact passLine_together h env d b steps
      · exact undefineName_together h env d b steps t
  | analyzeSuspend =>
      dsimp only
      split
      · exact passLine_together h env d b steps
      · exact hfaultless (openSection_together h env d b steps t)
  | analyzeResume =>
      dsimp only
      split
      · exact passLine_together h env d b steps
      · exact endSection_together h env d b steps t
  | message =>
      dsimp only
      split <;> exact passLine_together h env d b steps

end Directives

end Parse

end AblOutline
