/-
Values that show no reference. The text of a value is read again where a
reference gives way to it, and what is read then may differ from what was
there when the value was put together:

    &SCOPED-DEFINE a /{&u}*"*/{&a}"      nothing defines u
    {&a}                                 /*"*/{&a}"

Where no value shows a reference when it is read again, expansion uses up the
references of the stream: it leaves what is ahead as it is, or leaves fewer
references there (`Sinks`).
-/
import AblOutline.Proofs.Lexing
import AblOutline.Proofs.Stream

namespace AblOutline

open Lexeme

-- =================================================================== texts

/-- No reference is seen where the text is read. -/
def ShowsNone (text : String) : Prop :=
  ∀ p ∈ lex text.toList, p.kind ≠ .reference

instance (text : String) : Decidable (ShowsNone text) :=
  inferInstanceAs (Decidable (∀ p ∈ lex text.toList, p.kind ≠ .reference))

section Texts

variable {text : String} {previous : Option TokenKind} {cs : List Char}

/-- Only a brace begins a reference. -/
theorem brace_mem_of_reference {p : Piece} (h : p ∈ lexFrom previous cs)
    (hk : p.kind = .reference) : '\x7b' ∈ cs := by
  fun_induction lexFrom previous cs with
  | case1 => cases h
  | case2 previous c rest lexeme ih =>
      rcases List.mem_cons.1 h with rfl | h
      · have hkind : ((first c rest).inContext previous c rest).kind
            = .reference := hk
        rcases first_cases c rest with
          ⟨-, hfirst⟩ | ⟨-, hfirst⟩ | ⟨rfl, -⟩ | hfirst
        · rw [hfirst] at hkind
          cases hkind
        · refine absurd hkind (inContext_kind_ne (by decide) ?_)
          rw [hfirst]
          unfold ofSlash
          split <;> exact fun h => by cases h
        · exact List.mem_cons_self
        · exact absurd hkind
            (inContext_kind_ne (by decide) (hfirst _ (by decide)))
      · exact List.mem_cons_of_mem _ (List.mem_of_mem_drop (ih h))

theorem showsNone_of_no_brace (h : '\x7b' ∉ text.toList) : ShowsNone text :=
  fun _ hp hk => h (brace_mem_of_reference hp hk)

theorem showsNone_toString (n : Nat) : ShowsNone (toString n) := by
  refine showsNone_of_no_brace fun h => ?_
  have hdigits : (toString n).toList = Nat.toDigits 10 n := Nat.toList_repr
  rw [hdigits] at h
  exact absurd (Nat.isDigit_of_mem_toDigits (by omega) (by omega) h)
    (by decide)

/-- A text that shows no reference has no token that is one. -/
theorem ShowsNone.tokenizeFragment (h : ShowsNone text) (owner : Nat) :
    ∀ t ∈ AblOutline.tokenizeFragment text owner, t.kind ≠ .reference := by
  intro t ht
  obtain ⟨u, hu, rfl⟩ := List.mem_map.1 ht
  have hmem := (List.mem_filter.1 hu).1
  rw [tokenize_eq] at hmem
  rcases List.mem_append.1 hmem with hmem | hmem
  · exact h _ (mem_tokensFrom hmem).1
  · rw [List.mem_singleton.1 hmem]
    exact fun h => by cases h

end Texts

namespace Parse

open Preprocess

-- ================================================================== values

/-- Some reference stands for a text that shows a reference. -/
def Source.ShowsReference (platform : Platform) (s : Source) : Prop :=
  ∃ name t value, s.referenceValue? platform name t = some value
    ∧ ¬ ShowsNone value

section Values

variable {platform : Platform} {s s' : Source}

theorem meaning?_congr (hchain : s'.chain = s.chain)
    (hdefinitions : s'.definitions = s.definitions) (name : String)
    (owner : Nat) : s'.meaning? name owner = s.meaning? name owner := by
  unfold Source.meaning?
  rw [hchain, hdefinitions]

/-- What references stand for depends on the files and the definitions, but for
numbers. -/
theorem Source.ShowsReference.congr (h : s'.ShowsReference platform)
    (hchain : s'.chain = s.chain) (hdefinitions : s'.definitions = s.definitions) :
    s.ShowsReference platform := by
  obtain ⟨name, t, value, hvalue, hshows⟩ := h
  obtain ⟨file, hfile, hrest⟩ := Option.bind_eq_some_iff.1 hvalue
  obtain ⟨meaning, hm, hmeant⟩ := Option.bind_eq_some_iff.1 hrest
  rw [hchain] at hfile
  rw [meaning?_congr hchain hdefinitions] at hm
  cases meaning with
  | value text =>
      exact ⟨name, t, value, Option.bind_eq_some_iff.2 ⟨file, hfile,
        Option.bind_eq_some_iff.2 ⟨_, hm, hmeant⟩⟩, hshows⟩
  | builtin b =>
      cases b with
      | sequence =>
          cases hmeant
          exact absurd (showsNone_toString s'.sequence) hshows
      | _ =>
          exact ⟨name, t, value, Option.bind_eq_some_iff.2 ⟨file, hfile,
            Option.bind_eq_some_iff.2 ⟨_, hm, hmeant⟩⟩, hshows⟩

/-- The tokens that a reference gives way to. -/
theorem valueTokens_kind {s : State} (h : ¬ s.source.ShowsReference platform)
    (t : Token) : ∀ v ∈ s.valueTokens platform t, v.kind ≠ .reference := by
  have hshows : ShowsNone ((s.source.referenceValue? platform
      (referenceName t.text) t).getD "") := by
    cases hvalue : s.source.referenceValue? platform
        (referenceName t.text) t with
    | none => exact showsNone_of_no_brace (by decide)
    | some value =>
        by_contra hno
        exact h ⟨_, _, _, hvalue, hno⟩
  intro v hv
  obtain ⟨u, hu, rfl⟩ := List.mem_map.1 hv
  unfold standingFor
  by_cases hk : u.kind = .eol
  · rw [if_pos hk]
    exact fun h => by cases h
  · rw [if_neg hk]
    exact hshows.tokenizeFragment t.owner u hu

end Values

-- ================================================================= sinking

/-- The number of references among tokens. -/
def references (ts : List Token) : Nat := ts.countP (·.kind == .reference)

theorem references_append (ts us : List Token) :
    references (ts ++ us) = references ts + references us :=
  List.countP_append

theorem references_cons {t : Token} (hk : t.kind = .reference)
    (ts : List Token) : references (t :: ts) = references ts + 1 :=
  List.countP_cons_of_pos (beq_iff_eq.2 hk)

theorem references_eq_zero {ts : List Token}
    (h : ∀ t ∈ ts, t.kind ≠ .reference) : references ts = 0 :=
  List.countP_eq_zero.2 fun t ht hk => h t ht (eq_of_beq hk)

/-- The stream is read on in the same files and with the same definitions;
where no value shows a reference, what is ahead stays as it is or has fewer
references. -/
structure Sinks (platform : Platform) (s s' : Source) : Prop where
  chain : s'.chain = s.chain
  definitions : s'.definitions = s.definitions
  beyond : s'.cursor.beyond = s.cursor.beyond
  lighter : ¬ s.ShowsReference platform →
    s'.cursor.ahead = s.cursor.ahead
      ∨ references s'.cursor.ahead < references s.cursor.ahead

namespace Sinks

variable {platform : Platform} {s s' s'' : Source}

/-- What is read in a source is not changed. -/
theorem aside (hcursor : s'.cursor = s.cursor) (hchain : s'.chain = s.chain)
    (hdefinitions : s'.definitions = s.definitions) : Sinks platform s s' :=
  ⟨hchain, hdefinitions, congrArg (·.beyond) hcursor,
    fun _ => Or.inl (congrArg (·.ahead) hcursor)⟩

theorem refl (s : Source) : Sinks platform s s := .aside rfl rfl rfl

theorem shows (h : Sinks platform s s') (hs : ¬ s.ShowsReference platform) :
    ¬ s'.ShowsReference platform :=
  fun hs' => hs (hs'.congr h.chain h.definitions)

theorem trans (h : Sinks platform s s') (h' : Sinks platform s' s'') :
    Sinks platform s s'' := by
  refine ⟨h'.chain.trans h.chain, h'.definitions.trans h.definitions,
    h'.beyond.trans h.beyond, fun hs => ?_⟩
  rcases h.lighter hs with he | hlt
  · rw [← he]
    exact h'.lighter (h.shows hs)
  · right
    rcases h'.lighter (h.shows hs) with he' | hlt'
    · rw [he']
      exact hlt
    · exact hlt'.trans hlt

end Sinks

section Expansion

variable (platform : Platform) (s : State) (a : Ahead)

theorem substitute_sinks {t : Token} {rest : List Token}
    (h : s.source.cursor.ahead.drop a.skipped = t :: rest)
    (hk : t.kind = .reference) :
    Sinks platform s.source (s.substitute platform a t).source := by
  have hafter : (s.source.afterReference (referenceName t.text)
        t.owner).cursor = s.source.cursor
      ∧ (s.source.afterReference (referenceName t.text)
        t.owner).chain = s.source.chain
      ∧ (s.source.afterReference (referenceName t.text)
        t.owner).definitions = s.source.definitions := by
    unfold Source.afterReference
    split <;> exact ⟨rfl, rfl, rfl⟩
  have hsource : (s.substitute platform a t).source
      = { s.source.afterReference (referenceName t.text) t.owner with
        cursor := (s.source.afterReference (referenceName t.text)
          t.owner).cursor.splice a (s.valueTokens platform t) } := rfl
  rw [hsource]
  generalize s.source.afterReference (referenceName t.text) t.owner = u
    at hafter ⊢
  obtain ⟨hcursor, hchain, hdefinitions⟩ := hafter
  rw [hcursor]
  obtain ⟨-, hsplice, -⟩ := drop_splice a h (s.valueTokens platform t)
  refine ⟨hchain, hdefinitions, ?_, fun hs => Or.inr ?_⟩
  · rw [hsplice]
  · -- one reference is gone, and its value has none
    have hahead : references s.source.cursor.ahead
        = references (s.source.cursor.ahead.take a.skipped)
          + (references rest + 1) := by
      rw [← references_cons hk, ← references_append, ← h,
        List.take_append_drop]
    rw [hsplice, hahead, references_append, references_append,
      references_eq_zero (valueTokens_kind hs t)]
    omega

/-- So it is for every one that gives way. -/
theorem Substitutions.sinks {platform : Platform} {s s' : State}
    (h : Substitutions platform s s') :
    Sinks platform s.source s'.source := by
  induction h with
  | refl => exact .refl _
  | tail _ hstep ih =>
      cases hstep with
      | mk a hat hfresh hk =>
          exact ih.trans (substitute_sinks platform _ a hat hk)

end Expansion

section Includes

variable {env : Environment} (s : State) (a : Ahead)

/-- Nothing is put in for an include directive that resolves to nothing. -/
theorem includeAt_sinks (hr : ∀ name file, env.resolver.resolve name file = none)
    (t : Token) :
    Sinks env.options.platform s.source (s.includeAt env a t).source := by
  unfold State.includeAt State.openInclude
  split
  · exact .refl _
  split
  · exact .refl _
  · dsimp only
    rw [hr]
    exact .aside rfl rfl rfl

theorem expandAt_sinks (hr : ∀ name file, env.resolver.resolve name file = none)
    (includes : Bool) :
    Sinks env.options.platform s.source (s.expandAt env a includes).source := by
  rcases expandAt_cases env s a includes with hsame | ⟨-, u, hu, hexpand⟩
  · rw [hsame]
    exact .refl _
  rw [hexpand]
  split
  · have hmark : ∀ v : State, Sinks env.options.platform v.source
        (v.markExpanded a).source := fun v => .aside rfl rfl rfl
    refine hu.sinks.trans (.trans ?_ (hmark _))
    unfold State.expandInclude
    dsimp only
    split
    · exact includeAt_sinks u a hr _
    · exact .refl _
  · exact hu.sinks

theorem expandNext_sinks
    (hr : ∀ name file, env.resolver.resolve name file = none) :
    Sinks env.options.platform s.source (s.expandNext env).source := by
  unfold State.expandNext
  split
  · exact expandAt_sinks s .nearest hr true
  · exact .refl _

/-- Where a look ahead expands no value that shows a reference, what is ahead
stays or has fewer references. -/
theorem lookAt_lighter {live : Bool}
    (hs : live = true → ¬ s.source.ShowsReference env.options.platform) :
    (lookAt env live a s).source.cursor.ahead = s.source.cursor.ahead
      ∨ references (lookAt env live a s).source.cursor.ahead
        < references s.source.cursor.ahead := by
  cases live with
  | true =>
      exact (lookAt_substitutions env true s a).sinks.lighter (hs rfl)
  | false => exact Or.inl rfl

end Includes

end Parse

end AblOutline
