/-
How the directives of a program are read: a section is opened and closed, and
a branch whose condition is `TRUE` is entered and left. Their operands are read
ahead and then passed over.
-/
import AblOutline.Proofs.Program.Sentences

namespace AblOutline.Parse

open Preprocess

variable (env : Environment) {s u : State} {v : View} {t : Token}
  {more : List Token} {start : Position} {offset : Nat}

-- ============================================================ directives

/-- A directive on a taken branch. -/
theorem Ready.directive (h : Ready s v (t :: more)) (hskip : v.skip = 0)
    (hk : t.kind = .directive)
    (hd : ∀ k, more.length < k → ∃ o,
      (s.moved t more).directive env k t = some o ∧ o.state = u)
    (hcursor : u.source.cursor = (s.moved t more).source.cursor)
    (hactive : u.view.Active) : Reaches env s u.view more := by
  refine h.look env hskip ?_ (fun k hlt => ?_) hcursor hactive
  · unfold Token.isEof
    rw [hk]
    rfl
  · obtain ⟨o, ho, hu⟩ := hd k hlt
    refine ⟨o, ?_, hu⟩
    have hobserve : (s.moved t more).observe t false
        = (none, s.moved t more) := by
      unfold State.observe
      rw [hk]
    rw [hobserve]
    unfold State.look
    rw [if_neg h.moved.depth_ne_zero, hk]
    exact ho

/-- The state `s` is at the directive `t` of the line `d`, with the operands
`ops` and then `rest` ahead. -/
structure AtDirective (d : DirectiveLine) (start : Position) (s : State)
    (v : View) (t : Token) (ops rest : List Token) : Prop where
  sound : Sound s
  plain : Plain s
  view : s.view = v
  active : s.inFalseBranch = false
  ahead : s.source.cursor.ahead = ops ++ rest
  word : Text.upper t.text = Text.upper (String.ofList d.word)
  line : ∀ u : State, u.rootLine t = (start.past d.before).line
  operands : ops.map (·.piece) = d.operands

/-- A line is read up to its directive, and from the end of the operands on. -/
theorem Ready.line {d : DirectiveLine} {word : String}
    (hd : d.WellFormed word) (hv : v.Calm)
    (h : Ready s v (tokensFrom start offset d.pieces ++ more)) :
    ∃ m t ops place bytes,
      AtDirective d start m v t ops (tokensFrom place bytes d.after ++ more)
      ∧ ∀ u v', u.view = { v' with skip := ops.length } → v'.Active →
        v'.skip = 0 → u.source.cursor = m.source.cursor →
        (∀ k, ops.length < k →
          ∃ o, m.directive env k t = some o ∧ o.state = u) →
        Reaches env s v' more := by
  obtain ⟨s₁, hl₁, h₁⟩ := h.split.gap env hd.before hv.skip
  obtain ⟨t, ops, place, bytes, h₂, ⟨hkind, hword, hline⟩, hops⟩ :
      ∃ t ops place bytes,
        Ready s₁ v (t :: (ops ++ (tokensFrom place bytes d.after ++ more)))
        ∧ (t.kind = .directive ∧ t.text = String.ofList d.word
          ∧ ∀ u : State, u.rootLine t = (start.past d.before).line)
        ∧ ops.map (·.piece) = d.operands := by
    rw [tokensFrom, tokensFrom_append, List.cons_append, List.append_assoc]
      at h₁
    exact ⟨_, _, _, _, h₁, ⟨rfl, rfl, fun _ => rfl⟩, map_piece_tokensFrom⟩
  have hactive : s₁.inFalseBranch = false := by
    have := h₂.active
    rw [← h₂.view] at this
    exact this
  refine ⟨_, t, ops, place, bytes, ⟨h₂.moved, h₂.moved_plain, h₂.view, hactive,
    rfl, congrArg Text.upper hword, hline, hops⟩, ?_⟩
  intro u v' hu hactive' hskip hcursor hd'
  have hplain : ∀ x ∈ ops, x.isEof = false := by
    intro x hx
    have hmem : x.piece ∈ d.operands := hops ▸ List.mem_map_of_mem hx
    exact beq_false_of_ne (hd.plain x.piece hmem).1
  refine Reaches.after hl₁ (Reaches.trans
    (h₂.directive env hv.skip hkind (fun k hk => hd' k ?_) hcursor ?_)
    fun s₂ h₂ => ?_)
  · rw [List.length_append] at hk
    omega
  · rw [hu]
    exact hactive'
  · rw [hu] at h₂
    have hpassed := h₂.passed env hplain rfl
    rw [← hskip] at hpassed
    exact hpassed.trans fun s₃ h₃ => h₃.gap env hd.after hskip

-- ================================================================= lines

/-- The pieces end with a line break, or only the end mark follows. -/
def LineEnds (ps : List Piece) (more : List Token) : Prop :=
  EndsLine ps ∨ ∃ t, more = [t] ∧ t.isEof = true

/-- What stands right after the operands of a directive that takes its
line. -/
theorem TakesLine.stop {d : DirectiveLine} {word : String} {place : Position}
    {bytes : Nat} (hd : d.TakesLine word) (he : LineEnds d.pieces more) :
    ∃ stop rest, tokensFrom place bytes d.after ++ more = stop :: rest
      ∧ (stop.kind = .eol ∨ stop.isEof = true) := by
  cases ha : d.after with
  | cons p ps =>
      refine ⟨p.token place bytes, _, rfl, Or.inl ?_⟩
      exact hd.line p (by rw [ha]; rfl)
  | nil =>
      rcases he with ⟨front, chars, hends⟩ | ⟨t, rfl, ht⟩
      · -- the last piece would be the directive or an operand
        have hlast : (⟨.eol, chars⟩ : Piece)
            ∈ ⟨.directive, d.word⟩ :: d.operands := by
          have hpieces : d.before ++ (⟨.directive, d.word⟩ :: d.operands)
              = front ++ [⟨.eol, chars⟩] := by
            rw [← hends]
            unfold DirectiveLine.pieces
            rw [ha, List.append_nil]
          have hget := congrArg List.getLast? hpieces
          rw [List.getLast?_append_of_ne_nil _ (List.cons_ne_nil _ _),
            List.getLast?_concat] at hget
          exact List.mem_of_getLast? hget
        rcases List.mem_cons.1 hlast with he | hmem
        · cases he
        · exact absurd rfl (hd.operands _ hmem).1
      · exact ⟨t, [], rfl, Or.inr ht⟩

/-- The operands of a directive that takes its line. -/
theorem takeLine_operands {d : DirectiveLine} {word : String} {k : Nat}
    {ops rest : List Token} (hd : d.TakesLine word) (hs : Plain s)
    (hops : ops.map (·.piece) = d.operands)
    (hahead : s.source.cursor.ahead = ops ++ rest)
    (hstop : ∃ stop more, rest = stop :: more
      ∧ (stop.kind = .eol ∨ stop.isEof = true))
    (hk : ops.length < k) :
    s.takeLine env k false
      = some (s.skipping ⟨ops, ops.length⟩, ⟨ops, ops.length⟩) := by
  obtain ⟨stop, more, rfl, hend⟩ := hstop
  have hmem : ∀ x ∈ ops, x.piece ∈ d.operands := fun x hx =>
    hops ▸ List.mem_map_of_mem hx
  have hfront : ∀ x ∈ ops, x.isEof = false ∧ x.kind ≠ .eol
      ∧ x.isSymbol "~" = false := by
    intro x hx
    have hplain := hd.plain _ (hmem x hx)
    have hline := hd.operands _ (hmem x hx)
    refine ⟨beq_false_of_ne hplain.1, hline.1, ?_⟩
    rw [Bool.eq_false_iff]
    intro htilde
    obtain ⟨hkind, htext⟩ := Bool.and_eq_true_iff.1 htilde
    refine hline.2 ?_
    show (⟨x.kind, x.text.toList⟩ : Piece) = _
    rw [eq_of_beq hkind, eq_of_beq htext]
    rfl
  unfold State.takeLine
  have hread : readLine env false k .nearest s
      = some (s, ⟨ops, ops.length⟩) :=
    hs.readLine hfront hend hahead hk
  rw [hread]
  rfl

-- ============================================================== sections

theorem ofWord_suspend {word : String} (h : Text.upper word = "&ANALYZE-SUSPEND") :
    Directive.ofWord word = .analyzeSuspend := by
  unfold Directive.ofWord
  rw [h]
  rfl

theorem ofWord_resume {word : String} (h : Text.upper word = "&ANALYZE-RESUME") :
    Directive.ofWord word = .analyzeResume := by
  unfold Directive.ofWord
  rw [h]
  rfl

/-- The section that the directive `t` with operands `o` opens. -/
def State.enterSection (s : State) (t : Token) (o : Operands) : State :=
  let type := o.first?.elim "" (·.text)
  let description := o.textAfterFirst
  let name := if description = "" then type else description
  (s.addItem name t (.editorSection type description)).openScope
    (.suspended s.nextItem t) t

theorem enterSection_view (s : State) (t : Token) (o : Operands) :
    (s.enterSection t o).view = { s.view with
      scopes := ⟨.suspended s.nextItem t, s.rootLine t⟩ :: s.view.scopes } := by
  have hquiet : Quiet s (s.addItem
      (if o.textAfterFirst = "" then o.first?.elim "" (·.text)
        else o.textAfterFirst) t
      (.editorSection (o.first?.elim "" (·.text)) o.textAfterFirst)) :=
    .addItem s _ t (by simp [Item.Content.reportName])
  rw [← hquiet.view]
  rfl

/-- `&ANALYZE-SUSPEND`. -/
theorem Ready.suspend {d : DirectiveLine} (hd : d.TakesLine "&ANALYZE-SUSPEND")
    (hv : v.Calm) (he : LineEnds d.pieces more)
    (h : Ready s v (tokensFrom start offset d.pieces ++ more)) :
    ∃ id opener, Reaches env s { v with
      scopes := ⟨.suspended id opener, (start.past d.before).line⟩
        :: v.scopes } more := by
  obtain ⟨m, t, ops, place, bytes, hm, hreach⟩ := h.line env hd.toWellFormed hv
  let o : Operands := ⟨ops, ops.length⟩
  refine ⟨m.nextItem, t, hreach ((m.skipping o).enterSection t o) _ ?_ h.active
    hv.skip rfl fun k hk => ?_⟩
  · rw [enterSection_view, hm.line, ← hm.view]
    rfl
  · have htake := takeLine_operands env hd hm.plain hm.operands hm.ahead
      (TakesLine.stop hd he) hk
    refine ⟨{ state := (m.skipping o).enterSection t o }, ?_, rfl⟩
    unfold State.directive
    dsimp only
    rw [ofWord_suspend (hm.word.trans hd.word), hm.active]
    show Option.map _ (State.openSection ..) = _
    unfold State.openSection
    rw [htake]
    rfl

/-- `&ANALYZE-RESUME` says where the section that it closes ends. -/
theorem endSection_eq {q : State} {operands : Operands} {nesting : Nesting}
    {scope : Scope} {id : ItemId} {k : Nat}
    (htake : s.takeLine env k false = some (q, operands))
    (hend : q.nesting.endSection? = some (scope, nesting))
    (hid : scope.item? = some id)
    (hset : State.setEndLine? { q with nesting } id (q.rootLine t) = some u) :
    s.endSection env k t = some { state := u } := by
  have hline : State.rootLine { q with nesting } t = q.rootLine t := rfl
  unfold State.endSection
  rw [htake]
  dsimp only [bind, Option.bind]
  rw [hend]
  dsimp only
  rw [hid]
  dsimp only
  rw [hline, hset]

/-- `&ANALYZE-RESUME` of the innermost scope. -/
theorem Ready.resume {d : DirectiveLine} (hd : d.TakesLine "&ANALYZE-RESUME")
    (hv : v.Calm) (he : LineEnds d.pieces more) {id : ItemId} {opener : Token}
    {line : Nat} {around : List OpenScope}
    (hscopes : v.scopes = ⟨.suspended id opener, line⟩ :: around)
    (h : Ready s v (tokensFrom start offset d.pieces ++ more)) :
    Reaches env s { v with scopes := around } more := by
  obtain ⟨m, t, ops, place, bytes, hm, hreach⟩ := h.line env hd.toWellFormed hv
  have hinner : m.nesting.scopes = ⟨.suspended id opener, line⟩ :: around := by
    rw [← hm.view] at hscopes
    exact hscopes
  obtain ⟨item, hitem, hsort⟩ : IsA m.findings.items id "preproc-block" :=
    hm.sound.scopes ⟨.suspended id opener, line⟩ (by
      rw [hinner]
      exact List.mem_cons_self)
  obtain ⟨hlt, -⟩ := Array.getElem?_eq_some_iff.1 hitem
  let q := m.skipping ⟨ops, ops.length⟩
  let u : State := { q with
    nesting := ⟨around⟩
    findings := { q.findings with
      items := q.findings.items.modify id fun i =>
        { i with endLine := some (q.rootLine t) } } }
  refine hreach u _ ?_ (h.active.around hscopes) hv.skip rfl
    fun k hk => ⟨{ state := u }, ?_, rfl⟩
  · have hfound : procedureEntries (m.findings.items.modify id fun i =>
        { i with endLine := some (q.rootLine t) })
        = procedureEntries m.findings.items := by
      refine procedureEntries_modify fun i hi => ?_
      rw [hitem] at hi
      cases hi
      have hother : item.content.reportName ≠ "procedure" := by
        rw [hsort]
        decide
      rw [entry?_of_other hother]
      exact entry?_of_other hother
    rw [← hm.view]
    exact View.ext rfl rfl hfound rfl rfl rfl rfl rfl rfl
  · have htake := takeLine_operands env hd hm.plain hm.operands hm.ahead
      (TakesLine.stop hd he) hk
    have hend : q.nesting.endSection?
        = some (.suspended id opener, ⟨around⟩) := by
      show m.nesting.endSection? = _
      unfold Nesting.endSection? Nesting.innermost?
      rw [hinner]
      rfl
    have hset : State.setEndLine? { q with nesting := ⟨around⟩ } id
        (q.rootLine t) = some u := if_pos hlt
    unfold State.directive
    dsimp only
    rw [ofWord_resume (hm.word.trans hd.word), hm.active]
    exact endSection_eq env htake hend rfl hset

-- ============================================================== branches

theorem ofWord_if {word : String} (h : Text.upper word = "&IF") :
    Directive.ofWord word = .ifThen := by
  unfold Directive.ofWord
  rw [h]
  rfl

theorem ofWord_endIf {word : String} (h : Text.upper word = "&ENDIF") :
    Directive.ofWord word = .endIf := by
  unfold Directive.ofWord
  rw [h]
  rfl

theorem ofWord_then {word : String} (h : Text.upper word = "&THEN") :
    Directive.ofWord word = .thenPart := by
  unfold Directive.ofWord
  rw [h]
  rfl

/-- The operands of a directive with a literal as its condition. -/
structure LiteralThen (holds : Bool) (ops condition : List Token)
    (stop literal : Token) : Prop where
  split : ops = condition ++ [stop]
  ends : stop.kind = .directive ∧ Directive.ofWord stop.text = .thenPart
  within : ∀ x ∈ condition, x.isEof = false ∧ x.kind ≠ .directive
  significant : Condition.Expression.significant condition = [literal]
  literal : literal.kind = .word
    ∧ Text.upper literal.text = if holds then "TRUE" else "FALSE"

theorem significant_eq_nil {ts : List Token}
    (h : ∀ x ∈ ts, x.kind.isTrivia = true) :
    Condition.Expression.significant ts = [] := by
  unfold Condition.Expression.significant
  rw [List.filter_eq_nil_iff]
  intro x hx
  rw [h x hx]
  exact Bool.false_ne_true

theorem literalThen_of_hasLiteral {d : DirectiveLine} {word : String}
    {holds : Bool} {ops : List Token} (hd : d.HasLiteral word holds)
    (hops : ops.map (·.piece) = d.operands) :
    ∃ condition stop literal, LiteralThen holds ops condition stop literal := by
  obtain ⟨front, yes, back, word, hsplit, hfront, hyes, hback, hthen⟩ :=
    hd.condition
  rw [hsplit] at hops
  obtain ⟨before, rest, rfl, hbefore, hrest⟩ := List.map_eq_append_iff.1 hops
  obtain ⟨y, rest, rfl, hy, hrest⟩ := List.map_eq_cons_iff.1 hrest
  obtain ⟨after, last, rfl, hafter, hlast⟩ := List.map_eq_append_iff.1 hrest
  obtain ⟨stop, rfl, hstop⟩ := List.map_eq_singleton_iff.1 hlast
  have hbeforeTrivia : ∀ x ∈ before, x.kind.isTrivia = true := fun x hx =>
    hfront x.piece (hbefore ▸ List.mem_map_of_mem hx)
  have hafterTrivia : ∀ x ∈ after, x.kind.isTrivia = true := fun x hx =>
    hback x.piece (hafter ▸ List.mem_map_of_mem hx)
  have hword : y.kind = .word := by
    rw [← hyes.1, ← hy]
    rfl
  refine ⟨before ++ y :: after, stop, y, ⟨?_, ⟨?_, ?_⟩, ?_, ?_, hword, ?_⟩⟩
  · simp
  · exact congrArg Piece.kind hstop
  · apply ofWord_then
    rw [← stop.piece_text, hstop]
    exact hthen
  · intro x hx
    have hkind : x.kind.isTrivia = true ∨ x.kind = .word := by
      rcases List.mem_append.1 hx with hx | hx
      · exact Or.inl (hbeforeTrivia x hx)
      rcases List.mem_cons.1 hx with rfl | hx
      · exact Or.inr hword
      · exact Or.inl (hafterTrivia x hx)
    refine ⟨beq_false_of_ne fun hk => ?_, fun hk => ?_⟩
    all_goals
      rw [hk] at hkind
      rcases hkind with h | h <;> cases h
  · have hnil := significant_eq_nil hbeforeTrivia
    have hnil' := significant_eq_nil hafterTrivia
    unfold Condition.Expression.significant at hnil hnil' ⊢
    rw [List.filter_append, List.filter_cons, hnil, hnil', hword]
    rfl
  · rw [← y.piece_text, hy]
    exact hyes.2

/-- `&IF TRUE &THEN`. -/
theorem Ready.enter {d : DirectiveLine} (hd : d.IsTrue) (hv : v.Calm)
    (h : Ready s v (tokensFrom start offset d.pieces ++ more)) :
    ∃ opener, Reaches env s { v with
      scopes := ⟨.conditional opener true true, (start.past d.before).line⟩
        :: v.scopes } more := by
  obtain ⟨m, t, ops, place, bytes, hm, hreach⟩ := h.line env hd.toWellFormed hv
  obtain ⟨condition, stop, yes, ho⟩ := literalThen_of_hasLiteral hd hm.operands
  have hahead := hm.ahead
  have hlength : ops.length = condition.length + 1 := by
    rw [ho.split, List.length_append]
    rfl
  rw [ho.split, List.append_assoc] at hahead
  let o : Operands := ⟨condition, condition.length + 1⟩
  let u : State := { m.skipping o with
    nesting := m.nesting.openIf t (m.rootLine t) true }
  refine ⟨t, hreach u _ ?_ h.active hv.skip rfl
    fun k hk => ⟨{ state := u }, ?_, rfl⟩⟩
  · rw [← hm.view, hlength, ← hm.line m]
    rfl
  · have hread : readCondition env true k .nearest m = some (m, o) :=
      hm.plain.readCondition ho.within ho.ends.1 ho.ends.2 hahead (by omega)
    have hholds : (m.skipping o).holds env o t.owner = true :=
      holds_literal ho.significant ho.literal.1 ho.literal.2
    unfold State.directive
    dsimp only
    rw [ofWord_if (hm.word.trans hd.word)]
    show Option.map _ (State.openIf ..) = _
    unfold State.openIf State.takeCondition
    rw [hm.active, Bool.not_false]
    dsimp only
    rw [hread]
    dsimp only [bind, Option.bind, Option.map]
    rw [hholds]
    rfl

/-- `&ENDIF` of the innermost scope. -/
theorem Ready.leave {d : DirectiveLine} (hd : d.IsEndIf) (hv : v.Calm)
    {opener : Token} {line : Nat} {around : List OpenScope}
    (hscopes : v.scopes = ⟨.conditional opener true true, line⟩ :: around)
    (h : Ready s v (tokensFrom start offset d.pieces ++ more)) :
    Reaches env s { v with scopes := around } more := by
  obtain ⟨m, t, ops, place, bytes, hm, hreach⟩ := h.line env hd.toWellFormed hv
  have hinner : m.nesting.scopes
      = ⟨.conditional opener true true, line⟩ :: around := by
    rw [← hm.view] at hscopes
    exact hscopes
  have hnone : ops = [] := by
    have hops := hm.operands
    rw [hd.operands] at hops
    exact List.map_eq_nil_iff.1 hops
  subst hnone
  refine hreach { m with nesting := ⟨around⟩ } _ ?_ (h.active.around hscopes)
    hv.skip rfl fun k _ => ⟨{ state := { m with nesting := ⟨around⟩ } }, ?_, rfl⟩
  · rw [← hm.view]
    have hskip : m.source.skip = 0 := by
      have := hv.skip
      rw [← hm.view] at this
      exact this
    exact View.ext rfl rfl rfl hskip rfl rfl rfl rfl rfl
  · have hend : m.nesting.endIf? = some ⟨around⟩ := by
      unfold Nesting.endIf? Nesting.innermost?
      rw [hinner]
      rfl
    unfold State.directive
    dsimp only
    rw [ofWord_endIf (hm.word.trans hd.word)]
    show Option.map _ (some (State.endIf ..)) = _
    unfold State.endIf
    rw [hend]
    rfl

end AblOutline.Parse
