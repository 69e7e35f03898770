/-
What is read as the operands of a directive. A line and a condition are read
token by token. Where references count, each gives way to its value when it is
come to, and what the value begins with is read in its place:

    stream            &MESSAGE a {&x} ~⏎ b⏎ c          x is "1 2"
    passed                    a 1 2 ~⏎ b               {&x} is used
    rest                                ⏎ c

`ReadsLine` and `ReadsCondition` say which tokens are passed and where reading stops;
the reading of operands follows them (`readLine_line`,
`readCondition_condition`), leaves all that is not ahead as it was, and puts
down the references it used (`ReadsUsing`).
-/
import AblOutline.Proofs.Expansion.Rounds

namespace AblOutline.Parse

open Preprocess

-- ============================================================ what is left

/-- The source is read ahead: it stays, but for what is ahead and the next
value of the sequence. -/
structure ReadAhead (s s' : Source) : Prop where
  passed : s'.cursor.passed = s.cursor.passed
  beyond : s'.cursor.beyond = s.cursor.beyond
  rest : s' = { s with cursor := s'.cursor, sequence := s'.sequence }

namespace ReadAhead

variable {s s' s'' : Source}

theorem refl (s : Source) : ReadAhead s s := ⟨rfl, rfl, rfl⟩

theorem trans (h : ReadAhead s s') (h' : ReadAhead s' s'') :
    ReadAhead s s'' := by
  refine ⟨h'.passed.trans h.passed, h'.beyond.trans h.beyond, ?_⟩
  rw [h'.rest, h.rest]

theorem chain (h : ReadAhead s s') : s'.chain = s.chain := by rw [h.rest]

theorem definitions (h : ReadAhead s s') : s'.definitions = s.definitions := by
  rw [h.rest]

theorem skip (h : ReadAhead s s') : s'.skip = s.skip := by rw [h.rest]

theorem expanded (h : ReadAhead s s') : s'.expanded = s.expanded := by
  rw [h.rest]

theorem asked (h : ReadAhead s s') : s'.asked = s.asked := by rw [h.rest]

/-- Whether a name has a value depends on neither the stream nor the
sequence. -/
theorem isSome_referenceValue? (h : ReadAhead s s') (platform : Platform)
    (name : String) (t : Token) :
    (s'.referenceValue? platform name t).isSome
      = (s.referenceValue? platform name t).isSome := by
  have hmeaning : s'.meaning? name t.owner = s.meaning? name t.owner := by
    rw [h.rest]
    rfl
  unfold Source.referenceValue?
  rw [hmeaning, h.chain]
  cases s.chain.get? t.owner with
  | none => rfl
  | some file =>
      cases s.meaning? name t.owner with
      | none => rfl
      | some meaning => cases meaning <;> rfl

end ReadAhead

-- =================================================================== uses

namespace State

/-- Puts down that the reference `t` was used. -/
def noteUse (platform : Platform) (s : State) (t : Token) : State :=
  let name := referenceName t.text
  s.addItem name t
    (.nameUse (s.source.referenceValue? platform name t).isSome)

/-- Puts down that the references `ts` were used, in that order. -/
def noteUses (platform : Platform) (s : State) (ts : List Token) : State :=
  ts.foldl (noteUse platform) s

end State

section Uses

variable {platform : Platform} {s s' s'' : State} {used used' : List Token}

theorem noteUses_source (platform : Platform) (s : State) (ts : List Token) :
    (s.noteUses platform ts).source = s.source := by
  induction ts generalizing s with
  | nil => rfl
  | cons t ts ih => exact (ih (s.noteUse platform t)).trans rfl

theorem noteUses_analysis (platform : Platform) (s : State) (ts : List Token) :
    (s.noteUses platform ts).analysis = s.analysis := by
  induction ts generalizing s with
  | nil => rfl
  | cons t ts ih => exact (ih (s.noteUse platform t)).trans rfl

/-- What is put down does not depend on how far the source is read ahead. -/
theorem noteUses_readAhead {source : Source} (h : ReadAhead s.source source)
    (ts : List Token) :
    State.noteUses platform { s with source } ts
      = { s.noteUses platform ts with source } := by
  induction ts generalizing s with
  | nil => rfl
  | cons t ts ih =>
      have hone : State.noteUse platform { s with source } t
          = { s.noteUse platform t with source } := by
        have hline : State.rootLine { s with source } t = s.rootLine t :=
          congrArg (IncludeChain.rootLine · t) h.chain
        have hvalue := h.isSome_referenceValue? platform
          (referenceName t.text) t
        unfold State.noteUse State.addItem State.addItemIn
        dsimp only
        rw [hline, hvalue]
        rfl
      show State.noteUses platform (State.noteUse platform _ t) ts = _
      rw [hone]
      exact ih (s := s.noteUse platform t) h

/-- Operands were read: the source was read ahead, and the references used
were put down. -/
structure ReadsUsing (platform : Platform) (used : List Token) (s s' : State) :
    Prop where
  source : ReadAhead s.source s'.source
  state : s' = { s.noteUses platform used with source := s'.source }

namespace ReadsUsing

theorem refl (s : State) : ReadsUsing platform [] s s := ⟨.refl _, rfl⟩

theorem trans (h : ReadsUsing platform used s s')
    (h' : ReadsUsing platform used' s' s'') :
    ReadsUsing platform (used ++ used') s s'' := by
  refine ⟨h.source.trans h'.source, ?_⟩
  have hsource := noteUses_source platform s used
  have hahead : ReadAhead (s.noteUses platform used).source s'.source := by
    rw [hsource]
    exact h.source
  rw [h'.state]
  unfold State.noteUses
  rw [List.foldl_append]
  show { State.noteUses platform s' used' with source := s''.source } = _
  rw [h.state, noteUses_readAhead hahead]
  rfl

theorem analysis (h : ReadsUsing platform used s s') : s'.analysis = s.analysis := by
  rw [h.state]
  exact noteUses_analysis platform s used

end ReadsUsing

end Uses

-- ================================================================= places

/-- At the position `a`, behind `front`, stands `ts`. -/
structure StandsAt (c : Cursor) (a : Ahead) (front ts : List Token) : Prop where
  ahead : c.ahead = front ++ ts
  length : front.length = a.skipped

namespace StandsAt

variable {c : Cursor} {a : Ahead} {front us : List Token}

theorem nearest (c : Cursor) : StandsAt c .nearest [] c.ahead := ⟨rfl, rfl⟩

/-- Behind the first tokens there stands the rest. -/
theorem behind (ts : List Token) (h : StandsAt c a front (ts ++ us)) :
    StandsAt c ⟨a.skipped + ts.length⟩ (front ++ ts) us where
  ahead := by rw [h.ahead, List.append_assoc]
  length := by rw [List.length_append, h.length]

/-- What is seen there is the first token. -/
theorem peekAhead (h : StandsAt c a front us) :
    c.peekAhead a = us.head?.getD c.beyond := by
  unfold Cursor.peekAhead
  rw [h.ahead, List.getElem?_append_right (Nat.le_of_eq h.length), h.length,
    Nat.sub_self, List.head?_eq_getElem?]

end StandsAt

-- ================================================================ giving way

/-- References at the front of `ts` give way to their values one after the
other: `used` are these, and `us` is what stands there in the end. -/
inductive GivesWay : List Token → List Token → List Token → Prop where
  | stay (ts : List Token) : GivesWay [] ts ts
  | value {used ts us vs : List Token} {t : Token} (hk : t.kind = .reference)
      (hvs : ∀ v ∈ vs, StandsFor t v) (h : GivesWay used (vs ++ ts) us) :
      GivesWay (t :: used) (t :: ts) us

section GivesWay

variable {platform : Platform} {a : Ahead} {depth : Nat} {r r' : Rounds}
  {ps : List Replacement}

theorem substitute_reads (platform : Platform) (s : State) (a : Ahead)
    (t : Token) : ReadsUsing platform [t] s (s.substitute platform a t) := by
  refine ⟨⟨?_, ?_, ?_⟩, rfl⟩
  · rw [substitute_cursor, Cursor.passed_splice]
  · rw [substitute_cursor]
    unfold Cursor.splice
    split <;> rfl
  · unfold State.substitute Source.afterReference
    dsimp only
    split <;> rfl

/-- The rounds at one position. -/
theorem Go.reads (h : Go platform a depth r ps r') :
    ReadsUsing platform (ps.map (·.reference)) r.state r'.state
      ∧ GivesWay (ps.map (·.reference))
          (r.state.source.cursor.ahead.drop a.skipped)
          (r'.state.source.cursor.ahead.drop a.skipped) := by
  induction h with
  | stay r => exact ⟨.refl _, .stay _⟩
  | @round r r' r'' t ps hstands hnext _ ih =>
      obtain ⟨u, rest, hdrop, hk, -, rfl⟩ := Rounds.next?_cases hnext
      obtain rfl : u = t :=
        Option.some.inj ((standing?_eq_some hdrop).symm.trans hstands)
      have hvalue := substitute_drop platform r.state a hdrop
      refine ⟨(substitute_reads platform r.state a u).trans ih.1, ?_⟩
      rw [hdrop]
      refine .value hk (valueTokens_standsFor platform r.state u) ?_
      rw [← hvalue]
      exact ih.2

/-- A look at a token lets the references there give way, where they count. -/
theorem lookAt_reads {front ts : List Token} {s : State} (env : Environment)
    (live : Bool) (hstands : StandsAt s.source.cursor a front ts) :
    ∃ used us, ReadsUsing env.options.platform used s (lookAt env live a s)
      ∧ GivesWay used ts us ∧ (live = false → used = [])
      ∧ StandsAt (lookAt env live a s).source.cursor a front us := by
  unfold lookAt
  split
  case isFalse => exact ⟨[], ts, .refl s, .stay ts, fun _ => rfl, hstands⟩
  case isTrue hlive =>
    obtain ⟨ps, hps⟩ := expandAt_expansion env s a false
    generalize s.expandAt env a false = u at hps ⊢
    cases hps with
    | handled => exact ⟨[], ts, .refl s, .stay ts, fun _ => rfl, hstands⟩
    | @rounds ps r hnot hgo hend =>
        obtain ⟨hahead, hlen⟩ := hstands
        obtain ⟨hreads, hgives⟩ := hgo.reads
        have hfront : s.source.cursor.ahead.take a.skipped = front := by
          rw [hahead, List.take_left' hlen]
        have hbefore := (Prod.mk.inj hgo.before_eq.1).2
        dsimp only at hgives hbefore
        rw [hahead, List.drop_left' hlen] at hgives
        refine ⟨_, _, hreads, hgives, fun h => ?_, ?_, hlen⟩
        · rw [hlive] at h
          cases h
        · rw [← hfront, ← hbefore, if_neg Bool.false_ne_true,
            List.take_append_drop]

end GivesWay

-- =============================================================== operands

/-- How the operands of a directive are read up to the end of its line, where
`live` says whether references give way: of the stream, `used` are those that
do, `passed` is what is passed over, and `rest` is where reading stops, at the
line break that ends the line or at the end of all. A tilde right before a line
break takes the line on. -/
inductive ReadsLine (live : Bool) :
    List Token → List Token → List Token → List Token → Prop where
  | stop {ts : List Token} (hend : ∀ t ∈ ts.head?, t.kind = .eol ∨ t.kind = .eof) :
      ReadsLine live ts [] [] ts
  | goesOn {t e : Token} {ts used passed rest : List Token}
      (ht : t.isSymbol "~" = true) (he : e.kind = .eol)
      (h : ReadsLine live ts used passed rest) :
      ReadsLine live (t :: e :: ts) used (t :: e :: passed) rest
  | token {t : Token} {ts used passed rest : List Token}
      (hk : t.kind ≠ .eol ∧ t.kind ≠ .eof)
      (hlast : t.isSymbol "~" = true → ∀ e ∈ ts.head?, e.kind ≠ .eol)
      (h : ReadsLine live ts used passed rest) :
      ReadsLine live (t :: ts) used (t :: passed) rest
  | value {t : Token} {ts vs used passed rest : List Token}
      (hlive : live = true) (hk : t.kind = .reference)
      (hvs : ∀ v ∈ vs, StandsFor t v)
      (h : ReadsLine live (vs ++ ts) used passed rest) :
      ReadsLine live (t :: ts) (t :: used) passed rest

/-- How a condition is read: `&THEN` ends it and is passed over with it;
another directive or the end of all ends it too, and is not. -/
inductive ReadsCondition (live : Bool) :
    List Token → List Token → List Token → List Token → Prop where
  | stop {ts : List Token} (hend : ∀ t ∈ ts.head?, t.kind = .eof
        ∨ t.kind = .directive ∧ Directive.ofWord t.text ≠ .thenPart) :
      ReadsCondition live ts [] [] ts
  | thenPart {t : Token} {ts : List Token} (hk : t.kind = .directive)
      (ht : Directive.ofWord t.text = .thenPart) :
      ReadsCondition live (t :: ts) [] [t] ts
  | token {t : Token} {ts used passed rest : List Token}
      (hk : t.kind ≠ .eof ∧ t.kind ≠ .directive)
      (h : ReadsCondition live ts used passed rest) :
      ReadsCondition live (t :: ts) used (t :: passed) rest
  | value {t : Token} {ts vs used passed rest : List Token}
      (hlive : live = true) (hk : t.kind = .reference)
      (hvs : ∀ v ∈ vs, StandsFor t v)
      (h : ReadsCondition live (vs ++ ts) used passed rest) :
      ReadsCondition live (t :: ts) (t :: used) passed rest

section Operands

variable {live : Bool} {ts us used used' passed rest : List Token}

/-- What stands at the front after references gave way is read on. -/
theorem GivesWay.line (h : GivesWay used ts us) (hlive : live = false → used = [])
    (hread : ReadsLine live us used' passed rest) :
    ReadsLine live ts (used ++ used') passed rest := by
  induction h with
  | stay => exact hread
  | value hk hvs _ ih =>
      cases live with
      | false => cases hlive rfl
      | true => exact .value rfl hk hvs (ih (fun h => by cases h) hread)

theorem GivesWay.condition (h : GivesWay used ts us)
    (hlive : live = false → used = [])
    (hread : ReadsCondition live us used' passed rest) :
    ReadsCondition live ts (used ++ used') passed rest := by
  induction h with
  | stay => exact hread
  | value hk hvs _ ih =>
      cases live with
      | false => cases hlive rfl
      | true => exact .value rfl hk hvs (ih (fun h => by cases h) hread)

/-- Reading a line stops at its end. -/
theorem ReadsLine.head (h : ReadsLine live ts used passed rest) :
    ∀ t ∈ rest.head?, t.kind = .eol ∨ t.kind = .eof := by
  induction h with
  | stop hend => exact hend
  | goesOn _ _ _ ih | token _ _ _ ih | value _ _ _ _ ih => exact ih

/-- What follows a value and begins with nothing of it follows it whole. -/
theorem suffix_of_head {P : Token → Prop} {vs : List Token}
    (h : rest <:+ vs ++ ts) (hhead : ∀ t ∈ rest.head?, P t)
    (hvs : ∀ v ∈ vs, ¬ P v) : rest <:+ ts := by
  induction vs with
  | nil => exact h
  | cons v vs ih =>
      rcases List.suffix_cons_iff.1 h with rfl | h
      · exact absurd (hhead v rfl) (hvs v List.mem_cons_self)
      · exact ih h fun u hu => hvs u (List.mem_cons_of_mem _ hu)

/-- Values break no line, so the end of the line stood in the stream. -/
theorem ReadsLine.suffix (h : ReadsLine live ts used passed rest) : rest <:+ ts := by
  induction h with
  | stop => exact List.suffix_rfl
  | goesOn _ _ _ ih =>
      exact ih.trans ((List.suffix_cons _ _).trans (List.suffix_cons _ _))
  | token _ _ _ ih => exact ih.trans (List.suffix_cons _ _)
  | value _ _ hvs hread ih =>
      refine (suffix_of_head ih hread.head fun v hv hend => ?_).trans
        (List.suffix_cons _ _)
      exact hend.elim (hvs v hv).kind.1 (hvs v hv).kind.2

/-- No end mark is passed over with a line. -/
theorem ReadsLine.isEof_passed (h : ReadsLine live ts used passed rest) :
    ∀ t ∈ passed, t.isEof = false := by
  induction h with
  | stop => exact fun _ h => by cases h
  | goesOn ht he _ ih =>
      have hk := (Bool.and_eq_true_iff.1 ht).1
      refine List.forall_mem_cons.2 ⟨?_, List.forall_mem_cons.2 ⟨?_, ih⟩⟩
      · rw [Token.isEof, eq_of_beq hk]
        rfl
      · rw [Token.isEof, he]
        rfl
  | token hk _ _ ih =>
      exact List.forall_mem_cons.2 ⟨beq_false_of_ne hk.2, ih⟩
  | value _ _ _ _ ih => exact ih

/-- Nor with a condition. -/
theorem ReadsCondition.isEof_passed (h : ReadsCondition live ts used passed rest) :
    ∀ t ∈ passed, t.isEof = false := by
  induction h with
  | stop => exact fun _ h => by cases h
  | thenPart hk =>
      refine List.forall_mem_singleton.2 ?_
      rw [Token.isEof, hk]
      rfl
  | token hk _ ih => exact List.forall_mem_cons.2 ⟨beq_false_of_ne hk.1, ih⟩
  | value _ _ _ _ ih => exact ih

end Operands

-- ================================================================ reading

section Reading

variable {env : Environment} {live : Bool} {steps : Nat} {a : Ahead}
  {s s' : State} {o : Operands}

/-- Operands were read behind `front`: `passed` stands there now, and `rest`
behind it. -/
structure ReadBehind (platform : Platform) (s s' : State) (o : Operands)
    (front used passed rest : List Token) : Prop
    extends ReadsUsing platform used s s' where
  ahead : s'.source.cursor.ahead = front ++ (passed ++ rest)
  count : o.count = passed.length

variable {platform : Platform} {u : State} {t : Token}
  {front used used' ts us passed rest : List Token}

theorem ReadBehind.stop (hreads : ReadsUsing platform used s u)
    (hstands : StandsAt u.source.cursor a front us) :
    ReadBehind platform s u .none front (used ++ []) [] us :=
  ⟨(List.append_nil used).symm ▸ hreads, hstands.ahead, rfl⟩

/-- Reading goes on behind `ts`, which is passed over. -/
theorem ReadBehind.after (hreads : ReadsUsing platform used s u)
    (h : ReadBehind platform u s' o (front ++ ts) used' passed rest)
    (t : Token) :
    ReadBehind platform s s' (o.after t ts.length) front (used ++ used')
      (ts ++ passed) rest := by
  refine ⟨hreads.trans h.toReadsUsing, ?_, ?_⟩
  · rw [h.ahead, List.append_assoc, List.append_assoc]
  · show o.count + ts.length = _
    rw [h.count, List.length_append, Nat.add_comm]

theorem readLine_line (hb : s.source.cursor.beyond.isEof = true)
    (hstands : StandsAt s.source.cursor a front ts)
    (h : readLine env live steps a s = some (s', o)) :
    ∃ used passed rest,
      ReadBehind env.options.platform s s' o front used passed rest
        ∧ ReadsLine live ts used passed rest := by
  induction steps generalizing a s s' o front ts with
  | zero => cases h
  | succ steps ih =>
      obtain ⟨used, us, hreads, hgives, hlive, hstands⟩ :=
        lookAt_reads env live hstands
      unfold readLine at h
      dsimp only at h
      generalize lookAt env live a s = u at hreads hstands h
      have hb' : u.source.cursor.beyond.isEof = true :=
        hreads.source.beyond ▸ hb
      rw [hstands.peekAhead] at h
      cases us with
      | nil =>
          rw [List.head?_nil, Option.getD_none, hb', Bool.true_or,
            if_pos rfl] at h
          cases h
          exact ⟨_, _, _, .stop hreads hstands,
            hgives.line hlive (.stop fun _ h => by cases h)⟩
      | cons t vs =>
          have hnext : StandsAt u.source.cursor a.next (front ++ [t]) vs :=
            hstands.behind [t]
          rw [hnext.peekAhead, List.head?_cons, Option.getD_some] at h
          split at h
          case isTrue hstop =>
            cases h
            refine ⟨_, _, _, .stop hreads hstands, hgives.line hlive (.stop ?_)⟩
            rintro _ ⟨⟩
            exact (Bool.or_eq_true_iff.1 hstop).symm.imp eq_of_beq eq_of_beq
          case isFalse hgoes =>
            have hk : t.kind ≠ .eol ∧ t.kind ≠ .eof := by
              rw [Bool.or_eq_true, not_or] at hgoes
              exact ⟨fun hk => hgoes.2 (beq_iff_eq.2 hk),
                fun hk => hgoes.1 (beq_iff_eq.2 hk)⟩
            split at h
            case isTrue htilde =>
              obtain ⟨ht, he⟩ := Bool.and_eq_true_iff.1 htilde
              obtain ⟨⟨w, o'⟩, hw, heq⟩ := Option.map_eq_some_iff.1 h
              cases heq
              cases vs with
              | nil =>
                  rw [List.head?_nil, Option.getD_none, eq_of_beq hb'] at he
                  cases he
              | cons e vs =>
                  obtain ⟨used', passed, rest, hread, hline⟩ :=
                    ih hb' (hstands.behind [t, e]) hw
                  exact ⟨_, _, _, hread.after hreads _,
                    hgives.line hlive (.goesOn ht (eq_of_beq he) hline)⟩
            case isFalse hlast =>
              obtain ⟨⟨w, o'⟩, hw, heq⟩ := Option.map_eq_some_iff.1 h
              cases heq
              obtain ⟨used', passed, rest, hread, hline⟩ := ih hb' hnext hw
              refine ⟨_, _, _, hread.after hreads _,
                hgives.line hlive (.token hk (fun ht e he hke => hlast ?_) hline)⟩
              rw [ht, Option.mem_def.1 he, Option.getD_some, hke]
              rfl

theorem readCondition_condition (hb : s.source.cursor.beyond.isEof = true)
    (hstands : StandsAt s.source.cursor a front ts)
    (h : readCondition env live steps a s = some (s', o)) :
    ∃ used passed rest,
      ReadBehind env.options.platform s s' o front used passed rest
        ∧ ReadsCondition live ts used passed rest := by
  induction steps generalizing a s s' o front ts with
  | zero => cases h
  | succ steps ih =>
      obtain ⟨used, us, hreads, hgives, hlive, hstands⟩ :=
        lookAt_reads env live hstands
      unfold readCondition at h
      dsimp only at h
      generalize lookAt env live a s = u at hreads hstands h
      have hb' : u.source.cursor.beyond.isEof = true :=
        hreads.source.beyond ▸ hb
      rw [hstands.peekAhead] at h
      cases us with
      | nil =>
          rw [List.head?_nil, Option.getD_none, if_pos hb'] at h
          cases h
          exact ⟨_, _, _, .stop hreads hstands,
            hgives.condition hlive (.stop fun _ h => by cases h)⟩
      | cons t vs =>
          rw [List.head?_cons, Option.getD_some] at h
          split at h
          case isTrue heof =>
            cases h
            refine ⟨_, _, _, .stop hreads hstands,
              hgives.condition hlive (.stop ?_)⟩
            rintro _ ⟨⟩
            exact Or.inl (eq_of_beq heof)
          case isFalse heof =>
            split at h
            case isTrue hk =>
              cases h
              by_cases ht : Directive.ofWord t.text = .thenPart
              · refine ⟨used ++ [], [t], vs, ?_,
                  hgives.condition hlive (.thenPart hk ht)⟩
                rw [if_pos ht]
                exact ⟨(List.append_nil used).symm ▸ hreads, hstands.ahead, rfl⟩
              · refine ⟨_, _, _, ?_, hgives.condition hlive (.stop ?_)⟩
                · rw [if_neg ht]
                  exact .stop hreads hstands
                · rintro _ ⟨⟩
                  exact Or.inr ⟨hk, ht⟩
            case isFalse hk =>
              obtain ⟨⟨w, o'⟩, hw, heq⟩ := Option.map_eq_some_iff.1 h
              cases heq
              obtain ⟨used', passed, rest, hread, hcondition⟩ :=
                ih hb' (hstands.behind [t]) hw
              exact ⟨_, _, _, hread.after hreads _, hgives.condition hlive
                (.token ⟨fun he => heof (beq_iff_eq.2 he), hk⟩ hcondition)⟩

end Reading

end AblOutline.Parse
