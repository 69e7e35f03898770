/-
How statements, headers and ends are read. The tokens of a sentence are
gathered one by one, and what its stop does follows from its first word and
from the scopes that are open.
-/
import AblOutline.Proofs.Program.Grammar
import AblOutline.Proofs.Program.Reading

namespace AblOutline.Parse

variable (env : Environment) {s u : State} {v : View} {more : List Token}
  {start : Position} {offset : Nat} {ps : List Piece}

-- ================================================================== runs

theorem Ready.split {qs : List Piece}
    (h : Ready s v (tokensFrom start offset (ps ++ qs) ++ more)) :
    Ready s v (tokensFrom start offset ps
      ++ (tokensFrom (start.past ps) (offset + bytesOf ps) qs ++ more)) := by
  rw [tokensFrom_append, List.append_assoc] at h
  exact h

/-- Tokens that carry no meaning. -/
theorem Ready.gap (h : Ready s v (tokensFrom start offset ps ++ more))
    (hps : IsGap ps) (hskip : v.skip = 0) : Reaches env s v more := by
  induction ps generalizing s start offset with
  | nil => exact h.reaches
  | cons p ps ih =>
      have hp : Reaches env s v _ :=
        h.trivia env hskip (hps p List.mem_cons_self)
      exact hp.trans fun s' hs' =>
        ih hs' fun q hq => hps q (List.mem_cons_of_mem _ hq)

/-- Tokens that are passed over. -/
theorem Ready.passed {front : List Token} (h : Ready s v (front ++ more))
    (hfront : ∀ t ∈ front, t.isEof = false) (hskip : v.skip = front.length) :
    Reaches env s { v with skip := 0 } more := by
  induction front generalizing s v with
  | nil =>
      have hsame : { v with skip := 0 } = v := by
        rw [← show v.skip = 0 from hskip]
      rw [hsame]
      exact h.reaches
  | cons t front ih =>
      have ht : Reaches env s { v with skip := front.length } _ :=
        h.pass env hskip (hfront t List.mem_cons_self)
      refine ht.trans fun s' hs' => ?_
      have hrest := ih hs'
        (fun x hx => hfront x (List.mem_cons_of_mem _ hx)) rfl
      exact hrest

theorem isTame_of_piece {t : Token} (h : t.piece.Tame) : IsTame t :=
  ⟨h.kind, h.plain, fun hk => by
    rw [← t.piece_text]
    exact h.word hk⟩

theorem significant_cons (p : Piece) (ps : List Piece) :
    significant (p :: ps)
      = if p.kind.isTrivia then significant ps else p :: significant ps := by
  unfold significant
  rw [List.filter_cons]
  cases p.kind.isTrivia <;> rfl

/-- Tokens within a statement. -/
theorem Ready.words (h : Ready s v (tokensFrom start offset ps ++ more))
    (hps : ∀ p ∈ ps, p.Tame) (hskip : v.skip = 0) (htokens : v.tokens ≠ [])
    (hrestart : v.restart = false) (hon : v.kind ≠ .on) :
    ∃ ts, ts.map (·.piece) = significant ps
      ∧ Reaches env s { v with tokens := v.tokens ++ ts } more := by
  induction ps generalizing s v start offset with
  | nil =>
      refine ⟨[], rfl, ?_⟩
      rw [List.append_nil]
      exact h.reaches
  | cons p ps ih =>
      have hrest : ∀ q ∈ ps, q.Tame :=
        fun q hq => hps q (List.mem_cons_of_mem _ hq)
      have hpiece : (p.token start offset).piece = p := p.piece_token
      rw [significant_cons]
      cases hk : p.kind.isTrivia with
      | true =>
          obtain ⟨s', hl, hs'⟩ := h.trivia env hskip hk
          obtain ⟨ts, hts, hr⟩ := ih hs' hrest hskip htokens hrestart hon
          exact ⟨ts, hts, hr.after hl⟩
      | false =>
          have htame : IsTame (p.token start offset) := by
            apply isTame_of_piece
            rw [hpiece]
            exact hps p List.mem_cons_self
          obtain ⟨s', hl, hs'⟩ :=
            h.further env hskip htokens hrestart hon htame hk
          obtain ⟨ts, hts, hr⟩ := ih hs' hrest hskip (by simp) hrestart hon
          refine ⟨p.token start offset :: ts, ?_, ?_⟩
          · rw [List.map_cons, hpiece, hts]
            rfl
          · rw [← List.singleton_append, ← List.append_assoc]
            exact hr.after hl

-- ============================================================= sentences

/-- The sentence `d` has ended at the token `stop` as the statement `st`, whose
tokens are `opener` and `words`. -/
structure Ended (d : Sentence) (start : Position) (st : Statement)
    (stop opener : Token) (words : List Token) : Prop where
  kind : st.kind = StatementKind.ofWord (String.ofList d.first)
  tokens : st.parts.map (·.token) = opener :: words
  trigger : st.trigger = none
  stop : stop.text = String.ofList [d.stop]
  first : opener.text = String.ofList d.first
  line : ∀ u : State, u.rootLine opener = (start.past d.before).line
  words : words.map (·.piece) = significant d.rest

/-- A sentence is read up to its end, at which a state `u` is changed by the
end of the statement. -/
theorem Ready.sentence {d : Sentence} (hd : d.WellFormed)
    (hon : StatementKind.ofWord (String.ofList d.first) ≠ .on) (hv : v.Calm)
    (h : Ready s v (tokensFrom start offset d.pieces ++ more)) :
    ∃ u st stop opener words, Sound u ∧ u.view = v
      ∧ (∀ v', (u.endStatement env st stop).state.view = v'
        ∧ (u.endStatement env st stop).state.source = u.source →
        v'.Active → v'.skip = 0 → Reaches env s v' more)
      ∧ Ended d start st stop opener words := by
  obtain ⟨s₁, hl₁, h₁⟩ := h.split.gap env hd.before hv.skip
  obtain ⟨s₂, hl₂, h₂⟩ := h₁.first env hv rfl hd.first
  obtain ⟨words, hwords, s₃, hl₃, h₃⟩ :=
    h₂.split.words env hd.rest hv.skip (by simp) hv.restart hon
  obtain ⟨u, st, hu, hview, hkind, htokens, htrigger, hreach⟩ :=
    h₃.stop env hv.skip (by simp) rfl
  refine ⟨u, st, _, _, words, hu, ?_, fun v' hend hactive hskip =>
      Reaches.after (hl₁.trans (hl₂.trans hl₃)) ((hreach v' hend hactive).trans
        fun s' hs' => hs'.gap env hd.after hskip),
    ⟨hkind, htokens, ?_, rfl, rfl, fun u => rfl, hwords⟩⟩
  · rw [hview]
    exact View.ext rfl rfl rfl rfl hv.kind.symm hv.tokens.symm hv.trigger.symm
      rfl hv.restart.symm
  · rw [htrigger]
    exact hv.trigger

/-- A statement. -/
theorem Ready.statement {d : Sentence} (hd : d.IsStatement) (hv : v.Calm)
    (h : Ready s v (tokensFrom start offset d.pieces ++ more)) :
    Reaches env s v more := by
  obtain ⟨u, st, stop, opener, words, hu, rfl, hreach, he⟩ :=
    h.sentence env hd.toWellFormed (by rw [hd.kind]; nofun) hv
  refine hreach _ (endOther_view env stop hv.trigger hv.label he.trigger ?_ ?_)
    h.active hv.skip
  · rw [he.kind, hd.kind]
  · rw [he.stop, hd.stop]

/-- The header of a block. -/
theorem Ready.header {d : Sentence} (hd : d.IsHeader) (hv : v.Calm)
    (h : Ready s v (tokensFrom start offset d.pieces ++ more)) :
    ∃ opener, Reaches env s { v with
      scopes := ⟨.block opener d.word none, (start.past d.before).line⟩
        :: v.scopes } more := by
  have hblock : StatementKind.ofWord (String.ofList d.first) = .block :=
    ofWord_of_block hd.word
  obtain ⟨u, st, stop, opener, words, hu, rfl, hreach, he⟩ :=
    h.sentence env hd.toWellFormed (by rw [hblock]; nofun) hv
  have hkind : st.kind = .block := he.kind.trans hblock
  have hend := endHeader_view env stop hv.trigger hv.label
    he.trigger hkind he.tokens
  have hword : Text.upper opener.text = d.word := by
    rw [he.first]
    rfl
  rw [he.line, hword] at hend
  exact ⟨opener, hreach _ hend h.active hv.skip⟩

/-- The header of a procedure, outside any other one. -/
theorem Ready.procedure {d : Sentence} (hd : d.IsProcedure) (hv : v.Calm)
    (hno : Nesting.openRoutines ⟨v.scopes⟩ = 0)
    (h : Ready s v (tokensFrom start offset d.pieces ++ more)) :
    ∃ id opener, (∀ e ∈ v.found, e.id < id)
      ∧ Reaches env s { v with
        scopes := ⟨.routine id .procedure "PROCEDURE" opener,
          (start.past d.before).line⟩ :: v.scopes
        found := v.found ++ [⟨id, d.name, none⟩] } more := by
  have hprocedure : StatementKind.ofWord (String.ofList d.first) = .procedure :=
    ofWord_of_procedure hd.word
  obtain ⟨u, st, stop, opener, words, hu, rfl, hreach, he⟩ :=
    h.sentence env hd.toWellFormed (by rw [hprocedure]; nofun) hv
  have hkind : st.kind = .procedure := he.kind.trans hprocedure
  obtain ⟨p, hp, hword⟩ := hd.name
  have hwords : words.map (·.piece) = [p] := he.words.trans hp
  obtain ⟨name, rfl, hpiece⟩ := List.map_eq_singleton_iff.1 hwords
  have hnameWord : name.kind = .word := by
    rw [← hpiece] at hword
    exact hword
  have hname : name.text = d.name := by
    unfold Sentence.name
    rw [hp, ← hpiece, ← name.piece_text]
    rfl
  have hend := endProcedure_view env stop hv.trigger hv.label
    he.trigger hkind he.tokens hnameWord hno
  rw [he.line, hname] at hend
  refine ⟨u.nextItem, opener, ?_, hreach _ hend h.active hv.skip⟩
  intro e hmem
  exact procedureEntries_lt hu.forest hmem

/-- `END` names what `keyword` opens, or nothing. -/
theorem Ended.isMismatched {d : Sentence} {keyword : String} {st : Statement}
    {stop opener : Token} {words : List Token} (hd : d.IsEnd keyword)
    (he : Ended d start st stop opener words)
    (hlen : min keyword.utf8ByteSize 3 ≤ keyword.toList.length) :
    State.isMismatched st keyword = false := by
  apply isMismatched_eq_false _ hlen
  rw [token?_eq, he.tokens]
  show words[0]? = none ∨ ∃ t, words[0]? = some t ∧ _
  rcases hd.names with hnone | ⟨p, hp, hspells⟩
  · have hwords := he.words.trans hnone
    rw [List.map_eq_nil_iff.1 hwords]
    exact Or.inl rfl
  · have hwords := he.words.trans hp
    obtain ⟨t, rfl, hpiece⟩ := List.map_eq_singleton_iff.1 hwords
    refine Or.inr ⟨t, rfl, ?_⟩
    rw [← t.piece_text, hpiece]
    exact hspells.2

/-- `END` of a block. -/
theorem Ready.endOfBlock {d : Sentence} {keyword : String} {opener : Token}
    {line : Nat} {around : List OpenScope}
    (hkeyword : keyword ∈ ["DO", "FOR", "REPEAT", "CASE"])
    (hd : d.IsEnd keyword) (hv : v.Calm)
    (hscopes : v.scopes = ⟨.block opener keyword none, line⟩ :: around)
    (h : Ready s v (tokensFrom start offset d.pieces ++ more)) :
    Reaches env s { v with scopes := around } more := by
  have hclose : StatementKind.ofWord (String.ofList d.first) = .close :=
    ofWord_of_end hd.word
  obtain ⟨u, st, stop, opener, words, hu, rfl, hreach, he⟩ :=
    h.sentence env hd.toWellFormed (by rw [hclose]; nofun) hv
  have hkind : st.kind = .close := he.kind.trans hclose
  have hmatch : State.isMismatched st keyword = false := by
    refine he.isMismatched hd ?_
    clear hd hscopes
    revert keyword
    decide
  exact hreach _ (endOfBlock_view env stop hv.trigger hv.label he.trigger hkind hscopes
    he.tokens hmatch) (h.active.around hscopes) hv.skip

/-- `END` of a procedure. -/
theorem Ready.endOfProcedure {d : Sentence} {id : ItemId} {opener : Token}
    {line : Nat} {around : List OpenScope} (hd : d.IsEnd "PROCEDURE")
    (hv : v.Calm)
    (hscopes : v.scopes
      = ⟨.routine id .procedure "PROCEDURE" opener, line⟩ :: around)
    (h : Ready s v (tokensFrom start offset d.pieces ++ more)) :
    Reaches env s { v with
      scopes := around
      found := v.found.map fun e =>
        if e.id = id then
          { e with endLine := some (start.past d.before).line }
        else e } more := by
  have hclose : StatementKind.ofWord (String.ofList d.first) = .close :=
    ofWord_of_end hd.word
  obtain ⟨u, st, stop, opener, words, hu, rfl, hreach, he⟩ :=
    h.sentence env hd.toWellFormed (by rw [hclose]; nofun) hv
  have hkind : st.kind = .close := he.kind.trans hclose
  have hmatch := he.isMismatched hd (by decide)
  have hend := endOfProcedure_view env stop hu hv.trigger
    hv.label he.trigger hkind hscopes he.tokens hmatch
  rw [he.line] at hend
  exact hreach _ hend (h.active.around hscopes) hv.skip

end AblOutline.Parse
