/-
Directives of branches with `TRUE` or `FALSE` as their conditions. Each does
to the chains what `Chains.read?` says, and else nothing: its operands are
read ahead and passed over, the scopes that are no `&IF`s stay open
(`Nesting.blocks`), and what is said of the tokens stays the same.
-/
import AblOutline.Proofs.Branches
import AblOutline.Proofs.Masked.Passing
import AblOutline.Proofs.Masked.Stretches
import AblOutline.Proofs.Program.Directives

namespace AblOutline

-- ================================================================ blocks

namespace Nesting

variable {n m : Nesting} {scopes around : List OpenScope} {o : OpenScope}

theorem blocks_append :
    blocks ⟨scopes ++ around⟩ = blocks ⟨scopes⟩ ++ blocks ⟨around⟩ := by
  unfold blocks
  rw [List.filter_append, List.map_append]

/-- The innermost `&IF` is none of the blocks. -/
theorem blocks_of_innermost
    (h : n.innermost? Scope.isConditional = some (scopes, o, around)) :
    o.scope.isConditional = true
      ∧ n.blocks = blocks ⟨scopes⟩ ++ blocks ⟨around⟩ := by
  obtain ⟨he, hc⟩ := splitScopes_eq_some h
  refine ⟨hc, ?_⟩
  show blocks ⟨n.scopes⟩ = _
  rw [he, blocks_append, blocks_cons_if hc]

theorem blocks_openIf (opener : Token) (line : Nat) (taken : Bool) :
    (n.openIf opener line taken).blocks = n.blocks :=
  blocks_cons_if rfl

theorem blocks_turn (active spent : Bool) :
    (n.turn active spent).blocks = n.blocks := by
  have hturned : ∀ scope : Scope, scope.isConditional = true →
      (turned active spent scope).isConditional = true := by
    intro scope hc
    cases scope <;> first | rfl | cases hc
  unfold turn
  split
  · rename_i within found around h
    obtain ⟨hc, hblocks⟩ := blocks_of_innermost h
    rw [hblocks, blocks_append, blocks_cons_if]
    exact hturned found.scope hc
  · rfl

theorem blocks_endIf (h : n.endIf? = some m) : m.blocks = n.blocks := by
  obtain ⟨⟨within, o, around⟩, hi, rfl⟩ := Option.map_eq_some_iff.1 h
  rw [(blocks_of_innermost hi).2]
  exact blocks_append

end Nesting

namespace Parse

open Preprocess

-- =============================================================== operands

theorem ofWord_elseIf {word : String} (h : Text.upper word = "&ELSEIF") :
    Directive.ofWord word = .elseIf := by
  unfold Directive.ofWord
  rw [h]
  rfl

theorem ofWord_else {word : String} (h : Text.upper word = "&ELSE") :
    Directive.ofWord word = .otherwise := by
  unfold Directive.ofWord
  rw [h]
  rfl

section Directive

variable {env : Environment} {s : State} {t : Token} {d : DirectiveLine}
  {e : BranchEvent} {cs cs' : Chains} {ops rest more : List Token}
  {start : Position} {offset : Nat}

variable (env)

/-- A literal condition is read ahead, looked into or not, and holds as it
says. -/
theorem takeCondition_literal {word : String} {holds : Bool} (hs : Plain s)
    (hd : d.HasLiteral word holds) (hops : ops.map (·.piece) = d.operands)
    (hahead : s.source.cursor.ahead = ops ++ rest) :
    ∃ o : Operands, o.count = ops.length
      ∧ (∀ k live, ops.length < k →
        s.takeCondition env k live = some (s.skipping o, o))
      ∧ ∀ u : State, u.holds env o t.owner = holds := by
  obtain ⟨condition, stop, literal, ho⟩ := literalThen_of_hasLiteral hd hops
  have hlength : ops.length = condition.length + 1 := by
    rw [ho.split, List.length_append]
    rfl
  rw [ho.split, List.append_assoc] at hahead
  refine ⟨⟨condition, condition.length + 1⟩, hlength.symm, fun k live hk => ?_,
    fun u => holds_literal ho.significant ho.literal.1 ho.literal.2⟩
  have hread : readCondition env live k .nearest s
      = some (s, ⟨condition, condition.length + 1⟩) :=
    hs.readCondition ho.within ho.ends.1 ho.ends.2 hahead (by omega)
  unfold State.takeCondition
  rw [hread]
  rfl

-- ============================================================= directives

/-- The state after a directive of branches: other `&IF`s are open, and some
tokens are to be passed over. -/
def State.branched (s : State) (n : Nesting) (skip : Nat) : State :=
  { s with nesting := n, source := { s.source with skip } }

/-- What a directive of branches does, where it finds the `&IF` it wants. -/
theorem directive_marks (hs : Plain s) (ht : Tracks s.nesting.scopes cs)
    (hskip : s.source.skip = 0) (hd : d.Marks e)
    (hword : Text.upper t.text = Text.upper (String.ofList d.word))
    (hops : ops.map (·.piece) = d.operands)
    (hahead : s.source.cursor.ahead = ops ++ rest)
    (hread : cs.read? e = some cs') :
    ∃ n, (∀ k, ops.length < k →
        s.directive env k t = some (s.branched n ops.length).done)
      ∧ n.blocks = s.nesting.blocks ∧ Tracks n.scopes cs' := by
  have hafter : cs.after e = cs' := by
    unfold Chains.after
    rw [hread]
    rfl
  have hlone : d.operands = [] → ∀ n,
      { s with nesting := n } = s.branched n ops.length := by
    intro hnil n
    rw [hnil] at hops
    rw [List.map_eq_nil_iff.1 hops]
    unfold State.branched
    rw [List.length_nil, ← hskip]
  -- what the event does to the chains is known of every directive
  have hk : ops.length < ops.length + 1 := Nat.lt_succ_self _
  have htracks : ∀ {n : Nesting} (holds : Bool),
      (∀ k, ops.length < k →
        s.directive env k t = some (s.branched n ops.length).done) →
      (∀ b, s.condition? env (ops.length + 1) t = some b → holds = b) →
      eventOf? t holds = some e → Tracks n.scopes cs' := by
    intro n _ ho hc he
    rw [← hafter]
    exact directive_tracks ht (ho _ hk) hc he
  have hcondition : ∀ {o : Operands} {holds : Bool},
      (∀ k live, ops.length < k →
        s.takeCondition env k live = some (s.skipping o, o)) →
      (∀ u : State, u.holds env o t.owner = holds) →
      ∀ b, s.condition? env (ops.length + 1) t = some b → holds = b := by
    intro o holds htake hholds b hb
    unfold State.condition? at hb
    rw [htake _ _ hk] at hb
    cases hb
    exact (hholds _).symm
  cases e with
  | ifThen holds =>
      have hw := ofWord_if (hword.trans hd.word)
      obtain ⟨o, hcount, htake, hholds⟩ :=
        takeCondition_literal env (t := t) hs hd hops hahead
      have hdirective : ∀ k, ops.length < k →
          s.directive env k t = some (s.branched
            (s.nesting.openIf t (s.rootLine t) (!s.inFalseBranch && holds))
            ops.length).done := by
        intro k hk
        unfold State.directive
        dsimp only
        rw [hw]
        show Option.map _ (State.openIf ..) = _
        unfold State.openIf
        dsimp only
        rw [htake _ _ hk]
        dsimp only [bind, Option.bind, Option.map]
        rw [hholds, ← hcount]
        rfl
      exact ⟨_, hdirective, Nesting.blocks_openIf .., htracks holds hdirective
        (hcondition htake hholds) (by unfold eventOf?; rw [hw])⟩
  | elseIf holds =>
      have hw := ofWord_elseIf (hword.trans hd.word)
      obtain ⟨o, hcount, htake, hholds⟩ :=
        takeCondition_literal env (t := t) hs hd hops hahead
      cases cs with
      | nil => cases hread
      | cons c cs =>
          have hdirective : ∀ k, ops.length < k →
              s.directive env k t = some (s.branched
                (s.nesting.turn (c.mayTurn && holds) (c.mayTurn && holds))
                ops.length).done := by
            intro k hk
            unfold State.directive
            dsimp only
            rw [hw]
            show Option.map _ (State.elseIf ..) = _
            unfold State.elseIf
            rw [Nesting.mayTurn?_eq ht]
            dsimp only
            rw [htake _ _ hk]
            dsimp only [bind, Option.bind, Option.map]
            rw [hholds, ← hcount]
            rfl
          exact ⟨_, hdirective, Nesting.blocks_turn .., htracks holds hdirective
            (hcondition htake hholds) (by unfold eventOf?; rw [hw])⟩
  | otherwise =>
      have hw := ofWord_else (hword.trans hd.word)
      have hsame := hlone hd.operands
      cases cs with
      | nil => cases hread
      | cons c cs =>
          have hdirective : ∀ k, ops.length < k →
              s.directive env k t = some (s.branched
                (s.nesting.turn c.mayTurn true) ops.length).done := by
            intro k _
            unfold State.directive
            dsimp only
            rw [hw]
            show some _ = _
            unfold State.otherwise
            rw [Nesting.mayTurn?_eq ht, ← hsame]
            rfl
          exact ⟨_, hdirective, Nesting.blocks_turn .., htracks
            ((s.condition? env (ops.length + 1) t).getD false) hdirective
            (fun b hb => by rw [hb]; rfl) (by unfold eventOf?; rw [hw])⟩
  | endIf =>
      have hw := ofWord_endIf (hword.trans hd.word)
      have hsame := hlone hd.operands
      cases cs with
      | nil => cases hread
      | cons c cs =>
          obtain ⟨within, o, around, -, -, -, hend, -⟩ := Nesting.endIf?_eq ht
          have hdirective : ∀ k, ops.length < k →
              s.directive env k t = some (s.branched
                ⟨within ++ around⟩ ops.length).done := by
            intro k _
            unfold State.directive
            dsimp only
            rw [hw]
            show some _ = _
            unfold State.endIf
            rw [hend, ← hsame]
            rfl
          exact ⟨_, hdirective, Nesting.blocks_endIf hend, htracks
            ((s.condition? env (ops.length + 1) t).getD false) hdirective
            (fun b hb => by rw [hb]; rfl) (by unfold eventOf?; rw [hw])⟩

theorem Facing.directive {n : Nesting} {skip : Nat}
    (h : Facing s (t :: more)) (hskip : s.source.skip = 0)
    (hk : t.kind = .directive)
    (hd : ∀ k, more.length < k → (s.moved t more).directive env k t
      = some ((s.moved t more).branched n skip).done)
    (hn : n.blocks = s.nesting.blocks) :
    ∃ u, Passes env [t.piece] more s u ∧ u.nesting = n
      ∧ u.source.skip = skip := by
  have hobserve : (s.moved t more).observe t false
      = (none, s.moved t more) := by
    unfold State.observe
    rw [hk]
  have hlook : ∀ k, more.length < k → ∃ o,
      ((s.moved t more).observe t false).2.look env k t
          ((s.moved t more).observe t false).1 = some o
        ∧ o.state = (s.moved t more).branched n skip := by
    intro k hlt
    refine ⟨((s.moved t more).branched n skip).done, ?_, rfl⟩
    rw [hobserve]
    unfold State.look
    rw [if_neg h.moved.depth_ne_zero, hk]
    exact hd k hlt
  obtain ⟨m, hl, hfacing⟩ := h.look hskip (by
    unfold Token.isEof
    rw [hk]
    rfl) hlook rfl
  exact ⟨_, ⟨hl, hfacing, ((Alike.refl s).branched hn).read rfl, rfl, rfl⟩, rfl,
    rfl⟩

/-- The last that carries meaning on the line is a directive. -/
theorem marks_last (hd : d.Marks e) :
    ∃ front word, ⟨.directive, d.word⟩ :: d.operands
      = front ++ [(⟨.directive, word⟩ : Piece)] := by
  have hliteral : ∀ {word : String} {holds : Bool},
      d.HasLiteral word holds → ∃ front word,
        ⟨.directive, d.word⟩ :: d.operands
          = front ++ [(⟨.directive, word⟩ : Piece)] := by
    intro word holds h
    obtain ⟨before, literal, back, stop, hoperands, -⟩ := h.condition
    refine ⟨⟨.directive, d.word⟩ :: (before ++ literal :: back), stop, ?_⟩
    rw [hoperands]
    simp
  have hlone : d.operands = [] → ∃ front word,
      ⟨.directive, d.word⟩ :: d.operands
        = front ++ [(⟨.directive, word⟩ : Piece)] := by
    intro h
    rw [h]
    exact ⟨[], d.word, rfl⟩
  cases e with
  | ifThen holds => exact hliteral hd
  | elseIf holds => exact hliteral hd
  | otherwise => exact hlone hd.operands
  | endIf => exact hlone hd.operands

theorem marks_significant (hd : d.Marks e) :
    ∃ front word, significant d.pieces
      = front ++ [(⟨.directive, word⟩ : Piece)] := by
  obtain ⟨_, hword⟩ := hd.wellFormed
  obtain ⟨front, word, hlast⟩ := marks_last hd
  refine ⟨significant front, word, ?_⟩
  unfold DirectiveLine.pieces
  rw [← List.cons_append, hlast, significant_append, significant_append,
    significant_append, hword.before.significant_eq_nil,
    hword.after.significant_eq_nil, List.append_nil]
  rfl

/-- What stands after a directive breaks the line where the line ends. -/
theorem marks_after_ne_nil (hd : d.Marks e) (he : EndsLine d.pieces) :
    d.after ≠ [] := by
  intro hnil
  obtain ⟨front, word, hlast⟩ := marks_last hd
  have hpieces : d.pieces = (d.before ++ front) ++ [⟨.directive, word⟩] := by
    unfold DirectiveLine.pieces
    rw [hnil, List.append_nil, hlast, List.append_assoc]
  rw [endsLine_iff, hpieces, List.getLast?_concat] at he
  cases he

/-- The line of a directive of branches is passed, and the chains turn as the
event says. -/
theorem Facing.branch (h : Facing s (tokensFrom start offset d.pieces ++ more))
    (hskip : s.source.skip = 0) (ht : Tracks s.nesting.scopes cs)
    (hd : d.Marks e) (hread : cs.read? e = some cs') :
    ∃ u, Passes env d.pieces more s u ∧ Tracks u.nesting.scopes cs'
      ∧ u.source.skip = 0 ∧ (EndsLine d.pieces → cs'.allActive = true →
        u.analysis.spaced = true) := by
  obtain ⟨_, hword⟩ := hd.wellFormed
  unfold DirectiveLine.pieces at h
  rw [tokensFrom_append, List.append_assoc] at h
  -- up to the directive
  obtain ⟨a, ha⟩ := h.gap env hskip hword.before
  obtain ⟨t, ops, place, bytes, h₁, ⟨hkind, htext⟩, hops⟩ :
      ∃ t ops place bytes,
        Facing a (t :: (ops ++ (tokensFrom place bytes d.after ++ more)))
          ∧ (t.kind = .directive ∧ t.piece = ⟨.directive, d.word⟩)
          ∧ ops.map (·.piece) = d.operands := by
    have h₁ := ha.facing
    rw [tokensFrom, tokensFrom_append, List.cons_append, List.append_assoc]
      at h₁
    exact ⟨_, _, _, _, h₁, ⟨rfl, Piece.piece_token _⟩, map_piece_tokensFrom⟩
  -- the directive and its operands
  have hplain : ∀ x ∈ ops, x.isEof = false := by
    intro x hx
    have hmem : x.piece ∈ d.operands := hops ▸ List.mem_map_of_mem hx
    exact beq_false_of_ne (hword.plain x.piece hmem).1
  have htracks : Tracks a.nesting.scopes cs := ha.nesting ▸ ht
  obtain ⟨n, hn, hblocks, hturned⟩ := directive_marks env (t := t)
    (s := a.moved t (ops ++ (tokensFrom place bytes d.after ++ more)))
    h₁.moved_plain htracks ha.skip hd
    (congrArg Text.upper (by rw [← t.piece_text, htext]; rfl)) hops rfl hread
  have hlength : ∀ k, (ops ++ (tokensFrom place bytes d.after
      ++ more)).length < k → ops.length < k := by
    intro k hk
    rw [List.length_append] at hk
    omega
  obtain ⟨b, hb, hnesting, hskip'⟩ := h₁.directive env ha.skip hkind
    (fun k hk => hn k (hlength k hk)) hblocks
  obtain ⟨c, hc, hsame, hzero⟩ :=
    hb.facing.passOver env hskip' hplain
  obtain ⟨u, hu⟩ := hc.facing.gap env hzero hword.after
  have hnow : Tracks u.nesting.scopes cs' := by
    rw [hu.nesting, hsame, hnesting]
    exact hturned
  rw [htext] at hb
  rw [hops] at hc
  refine ⟨u, ?_, hnow, hu.skip, fun he hactive => ?_⟩
  · have hall := ha.toPasses.trans (hb.trans (hc.trans hu.toPasses))
    exact hall
  · have hlive : c.inFalseBranch = false := by
      show c.nesting.inFalseBranch = false
      rw [← hu.nesting, hnow.inFalseBranch_eq, hactive]
      rfl
    exact (hu.spaced hlive).resolve_right fun h =>
      marks_after_ne_nil hd he h.1

end Directive

end Parse

end AblOutline
