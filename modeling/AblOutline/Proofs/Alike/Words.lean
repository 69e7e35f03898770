/-
Words read alike. A word of a statement does the same to alike states where
the tokens around it answer the same questions: whether the word may be a call
(`State.mayCall`), and which function a `DYNAMIC-FUNCTION` names.
-/
import AblOutline.Proofs.Alike
import AblOutline.Proofs.Program.View

namespace AblOutline.Parse

/-- A parenthesis follows the current word, and what stands before does not
say that the word is a method or a class. -/
def State.mayCall (s : State) : Bool :=
  let before := s.source.cursor.lastSignificant
  s.source.cursor.nextSignificant.isSymbol "("
    && !before.isSymbol ":" && !before.isWord "NEW"

namespace Alike

variable {env : Environment} {s s' : State} {t t' : Token}

-- ================================================================ names

theorem addCall (h : Alike s s') (name : String) (ht : t.bare = t'.bare)
    (dynamic : Bool) :
    Alike (s.addCall name t dynamic) (s'.addCall name t' dynamic) := by
  unfold State.addCall
  rw [h.function?]
  exact h.addItem name ht _

theorem isCall (h : Alike s s') (ht : t.bare = t'.bare)
    (hcall : s.mayCall = s'.mayCall) (spaced : Bool) :
    s.isCall env t spaced = s'.isCall env t' spaced := by
  have htarget : s.analysis.statement.inTarget spaced
      = s'.analysis.statement.inTarget spaced := by
    rw [← Statement.inTarget_bare, h.statement, Statement.inTarget_bare]
  show (s.mayCall && !s.analysis.statement.kind.isHeader
      && !s.analysis.statement.inTarget spaced
      && ((s.function? t.text).isSome || !env.directory.isKeyword t.text)) = _
  rw [hcall, h.kind, htarget, h.function?, Token.text_eq ht]
  rfl

theorem useTable (h : Alike s s') (ht : t.bare = t'.bare) (table : String)
    (temporary : Bool) :
    Alike (s.useTable t table temporary) (s'.useTable t' table temporary) := by
  have huses : s.analysis.tableUses = s'.analysis.tableUses := by
    show s.analysis.bare.tableUses = s'.analysis.bare.tableUses
    rw [h.analysis]
  unfold State.useTable
  dsimp only
  rw [h.scopeItem?, huses]
  split
  · exact h
  · have hadd := h.addItem table ht (.tableUse temporary)
    exact hadd.noting (fun a => { a with tableUses := _ :: a.tableUses })
      fun _ => rfl

theorem addUnknown (h : Alike s s') (ht : t.bare = t'.bare) :
    Alike (s.addUnknown t) (s'.addUnknown t') := by
  have hseen : s.analysis.seenWords = s'.analysis.seenWords := by
    show s.analysis.bare.seenWords = s'.analysis.bare.seenWords
    rw [h.analysis]
  unfold State.addUnknown
  dsimp only
  rw [hseen, Token.text_eq ht]
  split
  · exact h
  · have hadd := h.addItem t'.text ht .word
    exact hadd.noting (fun a => { a with seenWords := _ :: a.seenWords })
      fun _ => rfl

theorem useNames (h : Alike s s') (ht : t.bare = t'.bare) :
    Alike (s.useNames env t) (s'.useNames env t') := by
  have htable : ∀ kind, s.tableOf? kind t.text = s'.tableOf? kind t'.text := by
    intro kind
    unfold State.tableOf?
    rw [h.localTable?, Token.text_eq ht]
  have hused : ∀ use : Option (String × Bool),
      Alike (use.elim s fun use => s.useTable t use.1 use.2)
        (use.elim s' fun use => s'.useTable t' use.1 use.2) := by
    intro use
    cases use with
    | none => exact h
    | some use => exact h.useTable ht use.1 use.2
  rw [State.useNames_eq, State.useNames_eq]
  dsimp only
  rw [htable, Token.text_eq ht]
  split
  · exact (hused _).addUnknown ht
  · exact hused _

theorem lookAtWord (h : Alike s s') (ht : t.bare = t'.bare)
    (hcall : s.mayCall = s'.mayCall)
    (hname : t.isWord "DYNAMIC-FUNCTION" = true →
      s.dynamicName? = s'.dynamicName?) (spaced : Bool) :
    Alike (s.lookAtWord env t spaced) (s'.lookAtWord env t' spaced) := by
  have hword : t.isWord "DYNAMIC-FUNCTION" = t'.isWord "DYNAMIC-FUNCTION" := by
    unfold Token.isWord
    rw [Token.kind_eq ht, Token.text_eq ht]
  unfold State.lookAtWord
  rw [h.isCall ht hcall, Token.text_eq ht]
  by_cases hsnippet : isSnippet t'.text = true
  · rw [if_pos hsnippet, if_pos hsnippet]
    exact h.addItem t'.text ht .snippet
  rw [if_neg hsnippet, if_neg hsnippet, ← hword]
  by_cases hdynamic : t.isWord "DYNAMIC-FUNCTION" = true
  · rw [if_pos hdynamic, if_pos hdynamic, hname hdynamic]
    cases s'.dynamicName? with
    | none => exact h
    | some name => exact h.addCall name ht true
  rw [if_neg hdynamic, if_neg hdynamic]
  split
  · exact h.addCall t'.text ht false
  · exact h.useNames ht

-- =========================================================== statements

theorem beginStatement (h : Alike s s') (ht : t.bare = t'.bare)
    (trigger : Option ItemId) :
    Alike (s.beginStatement t trigger) (s'.beginStatement t' trigger) := by
  unfold State.beginStatement
  rw [Token.text_eq ht]
  exact h.noting (fun a => { a with statement := _ }) fun _ => rfl

theorem addTrigger (h : Alike s s') {st st' : Statement}
    (hst : st.bare = st'.bare) (ht : t.bare = t'.bare) :
    Alike (s.addTrigger st t) (s'.addTrigger st' t') := by
  unfold State.addTrigger
  rw [← st.triggerHead_bare, hst, st'.triggerHead_bare]
  exact h.addItem _ ht _

/-- The first tokens of two statements. -/
theorem first? (h : Alike s s') :
    s.analysis.statement.first? = none ∧ s'.analysis.statement.first? = none
      ∨ ∃ f f', s.analysis.statement.first? = some f
        ∧ s'.analysis.statement.first? = some f' ∧ f.bare = f'.bare := by
  have hfirst := congrArg Statement.first? h.statement
  rw [Statement.first?_bare, Statement.first?_bare] at hfirst
  cases hf : s.analysis.statement.first? with
  | none =>
      rw [hf] at hfirst
      exact Or.inl ⟨rfl, Option.map_eq_none_iff.1 hfirst.symm⟩
  | some f =>
      rw [hf] at hfirst
      obtain ⟨f', hf', hbare⟩ := Option.map_eq_some_iff.1 hfirst.symm
      exact Or.inr ⟨f, f', rfl, hf', hbare.symm⟩

theorem beginAtWord (h : Alike s s') (ht : t.bare = t'.bare) :
    Alike (s.beginAtWord t) (s'.beginAtWord t') := by
  have haction : s.analysis.statement.startsAction t.text
      = s'.analysis.statement.startsAction t'.text := by
    rw [← Statement.startsAction_bare, h.statement, Token.text_eq ht,
      Statement.startsAction_bare]
  unfold State.beginAtWord
  dsimp only
  rcases h.first? with ⟨hf, hf'⟩ | ⟨f, f', hf, hf', hfirst⟩
  · rw [hf, hf']
    exact h.beginStatement ht none
  · rw [hf, hf', h.restart, haction, h.trigger, h.nextItem]
    dsimp only
    split
    · exact h.beginStatement ht _
    · split
      · exact (h.addTrigger h.statement hfirst).beginStatement ht _
      · exact h

theorem addPart (h : Alike s s') {p p' : Part} (hp : p.bare = p'.bare) :
    Alike (s.addPart p) (s'.addPart p') := by
  refine h.noted ?_
  have hadd : ∀ (st : Statement) (p : Part),
      (st.add p).bare = st.bare.add p.bare := by
    intro st p
    unfold Statement.bare Statement.add
    rw [List.map_append]
    rfl
  unfold Analysis.bare
  dsimp only
  rw [hadd, hadd, h.statement, hp]
  exact congrArg (fun a : Analysis =>
    { a with statement := s'.analysis.statement.bare.add p'.bare }) h.analysis

theorem unspaced (h : Alike s s') : Alike s.unspaced s'.unspaced :=
  h.noted h.analysis

theorem restarting (h : Alike s s') (restart : Bool) :
    Alike (s.restarting restart) (s'.restarting restart) :=
  h.noting (fun a => { a with restart }) fun _ => rfl

end Alike

variable {env : Environment} {s s' : State} {t t' : Token}

-- ================================================================ words

/-- A word leaves the source as it was where it begins a statement. -/
theorem beginAtWord_source (s : State) (t : Token) :
    (s.beginAtWord t).source = s.source := by
  unfold State.beginAtWord
  dsimp only
  split
  · rfl
  · split
    · rfl
    · split <;> rfl

/-- A token of a statement is read alike. -/
theorem Alike.readToken (h : Alike s s') (ht : t.bare = t'.bare)
    (hspaced : s.analysis.spaced = s'.analysis.spaced)
    (hcall : t.kind = .word → s.mayCall = s'.mayCall)
    (hname : t.isWord "DYNAMIC-FUNCTION" = true →
      s.dynamicName? = s'.dynamicName?) :
    Alike (s.readToken env t) (s'.readToken env t') := by
  have hpart : ∀ spaced, (Part.mk t spaced).bare = (Part.mk t' spaced).bare := by
    intro spaced
    unfold Part.bare
    rw [ht]
  by_cases hk : t.kind = .word
  · have hsource : ∀ (u : State) (x : Token) restart,
        ((u.unspaced.beginAtWord x).restarting restart).source = u.source :=
      fun u x _ => beginAtWord_source u.unspaced x
    have hbegun := (h.unspaced.beginAtWord ht).restarting
      (Keyword.isIn t'.text Keyword.restarts)
    rw [readToken_word env s t hk,
      readToken_word env s' t' (Token.kind_eq ht ▸ hk), hspaced,
      Token.text_eq ht]
    refine Alike.addPart (hbegun.lookAtWord ht ?_ ?_ _) (hpart _)
    · unfold State.mayCall at hcall ⊢
      rw [hsource, hsource]
      exact hcall hk
    · unfold State.dynamicName? at hname ⊢
      rw [hsource, hsource]
      exact hname
  · rw [readToken_other env s t hk,
      readToken_other env s' t' (Token.kind_eq ht ▸ hk), hspaced]
    exact h.unspaced.addPart (hpart _)

end AblOutline.Parse
