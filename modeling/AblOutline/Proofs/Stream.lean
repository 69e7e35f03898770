/-
The stream of tokens that a parse reads. Values and included files change it
ahead of the cursor, in one of the ways of `Edit`:

    [ .. {&x} . ]      the tokens of its value take the place of a reference
    [ .. {inc.i} . ]   the tokens of a file are put in after the directive

All else that is done to the source leaves the stream as it is. So a step of a
parse is a row of edits (`step_edits`), and what every edit keeps is kept from
the first token to the last.

Edits are made where nothing is expanded yet. What a file is put in after is
expanded from then on, so no later edit comes between the two.
-/
import AblOutline.Proofs.Change.Run
import AblOutline.Proofs.ReadingOn
import AblOutline.Proofs.Resting

namespace AblOutline

/-- The files of one chain are those of another, with the same numbers. -/
def IncludeChain.Grows (c c' : IncludeChain) : Prop :=
  ∀ i f, c.get? i = some f → c'.get? i = some f

/-- What is kept for a path stays. -/
def TokenCache.Grows (c c' : TokenCache) : Prop :=
  ∀ path tokens, c.get? path = some tokens → c'.get? path = some tokens

theorem TokenCache.grows_insert (c : TokenCache) (path : String)
    (tokens : List Token) : c.Grows (c.insert path tokens) := by
  intro p kept hget
  unfold TokenCache.insert
  split
  · exact hget
  · obtain ⟨e, he, rfl⟩ := Option.map_eq_some_iff.1 hget
    unfold TokenCache.get?
    dsimp only
    rw [List.find?_append, he]
    rfl

namespace Parse

open Preprocess

-- ================================================================== edits

/-- What edits are about: the stream, its files, how much of it is expanded,
and the tokens that its files are taken from. -/
def Source.stream (s : Source) : Cursor × IncludeChain × Nat × TokenCache :=
  (s.cursor, s.chain, s.expanded, s.cache)

/-- The tokens of a file as they are put into the stream: without an end mark,
and owned by that file. -/
def ownedBy (owner : Nat) (tokens : List Token) : List Token :=
  (tokens.filter (!·.isEof)).map (·.withOwner owner)

theorem mem_ownedBy {owner : Nat} {tokens : List Token} :
    ∀ v ∈ ownedBy owner tokens, v.owner = owner ∧ v.isEof = false := by
  intro v hv
  obtain ⟨u, hu, rfl⟩ := List.mem_map.1 hv
  have hne := (List.mem_filter.1 hu).2
  rw [Bool.not_eq_true'] at hne
  exact ⟨rfl, hne⟩

/-- The directive `t` brings in the file at `path`. -/
structure BringsIn (c : IncludeChain) (t : Token) (path : String)
    (f : ChainFile) : Prop where
  path : f.path = some path
  trigger : f.trigger = some t
  parent : f.parent = some t.owner
  rootLine : f.rootLine = c.rootLine t

/-- The token stands in the place of `t`; it breaks no line and is no end
mark. -/
structure StandsFor (t v : Token) : Prop where
  start : v.start = t.start
  range : v.range = t.range
  owner : v.owner = t.owner
  kind : v.kind ≠ .eol ∧ v.kind ≠ .eof

/-- One edit of the source ahead of the cursor. -/
inductive Edit : Source → Source → Prop where
  /-- The stream and its files stay as they are. -/
  | aside (s : Source) {s' : Source} (hcursor : s'.cursor = s.cursor)
      (hchain : s'.chain = s.chain) (hexpanded : s.expanded ≤ s'.expanded)
      (hcache : s.cache.Grows s'.cache) : Edit s s'
  /-- Tokens of a value in the place of a reference. -/
  | value (s : Source) {front rest ts : List Token} {t : Token}
      (ht : s.cursor.ahead = front ++ t :: rest)
      (hfresh : s.expanded ≤ front.length) (hk : t.kind = .reference)
      (hts : ∀ v ∈ ts, StandsFor t v) :
      Edit s { s with cursor :=
        { s.cursor with ahead := front ++ ts ++ rest } }
  /-- A file of the chain, and its tokens after the directive. -/
  | file (s : Source) (a : Ahead) {path : String} {tokens : List Token}
      {f : ChainFile} (hfresh : s.expanded ≤ a.skipped)
      (hk : (s.cursor.peekAhead a).kind = .inclusion)
      (hf : BringsIn s.chain (s.cursor.peekAhead a) path f)
      (htokens : s.cache.get? path = some tokens) :
      Edit s { s with
        chain := s.chain.push f
        cursor := s.cursor.insert a.next (ownedBy s.chain.size tokens)
        expanded := max s.expanded a.distance }

/-- Any number of edits. -/
abbrev Edits : Source → Source → Prop := Relation.ReflTransGen Edit

theorem Edits.aside {s s' : Source} (h : s'.stream = s.stream) :
    Edits s s' := by
  obtain ⟨hcursor, h⟩ := Prod.mk.inj h
  obtain ⟨hchain, h⟩ := Prod.mk.inj h
  obtain ⟨hexpanded, hcache⟩ := Prod.mk.inj h
  refine .single (.aside s hcursor hchain (Nat.le_of_eq hexpanded.symm) ?_)
  rw [hcache]
  exact fun _ _ hget => hget

/-- The files of the chain stay. -/
theorem Edits.grows {s s' : Source} (h : Edits s s') : s.chain.Grows s'.chain := by
  intro i f hf
  induction h with
  | refl => exact hf
  | tail _ hedit ih =>
      cases hedit with
      | aside hcursor hchain hexpanded hcache =>
          rw [hchain]
          exact ih
      | value ht hfresh hk hts => exact ih
      | file a hfresh hk hf htokens =>
          obtain ⟨hlt, -⟩ := Array.getElem?_eq_some_iff.1 ih
          exact (Array.getElem?_push.trans (if_neg (Nat.ne_of_lt hlt))).trans ih

/-- What has been passed stays as it was read. -/
theorem Edits.passed {s s' : Source} (h : Edits s s') :
    s'.cursor.passed = s.cursor.passed := by
  induction h with
  | refl => rfl
  | tail _ hedit ih =>
      cases hedit with
      | aside hcursor hchain hexpanded hcache =>
          rw [hcursor]
          exact ih
      | value ht hfresh hk hts => exact ih
      | file a hfresh hk hf htokens =>
          exact (Cursor.passed_insert _ _ _).trans ih

-- ================================================================= values

section Values

variable (platform : Platform) (s : State) (a : Ahead)

theorem valueTokens_standsFor (t : Token) :
    ∀ v ∈ s.valueTokens platform t, StandsFor t v := by
  intro v hv
  obtain ⟨u, hu, rfl⟩ := List.mem_map.1 hv
  obtain ⟨w, hw, rfl⟩ := List.mem_map.1 hu
  have hkind : w.kind ≠ .eof := by
    have hne := (List.mem_filter.1 hw).2
    intro he
    unfold Token.isEof at hne
    rw [he] at hne
    cases hne
  unfold standingFor
  by_cases hk : (w.withOwner t.owner).kind = .eol
  · rw [if_pos hk]
    exact ⟨rfl, rfl, rfl, nofun, nofun⟩
  · rw [if_neg hk]
    exact ⟨rfl, rfl, rfl, hk, hkind⟩

theorem afterReference_stream (source : Source) (name : String)
    (owner : Nat) :
    (source.afterReference name owner).stream = source.stream := by
  unfold Source.afterReference
  split <;> rfl

/-- A reference is replaced where it stands. -/
theorem substitute_edits {t : Token} {rest : List Token}
    (h : s.source.cursor.ahead.drop a.skipped = t :: rest)
    (hfresh : s.source.expanded ≤ a.skipped) (hk : t.kind = .reference) :
    Edits s.source (s.substitute platform a t).source := by
  have hstream :=
    afterReference_stream s.source (referenceName t.text) t.owner
  show Edits s.source { s.source.afterReference (referenceName t.text) t.owner
    with cursor := (s.source.afterReference (referenceName t.text)
      t.owner).cursor.splice a (s.valueTokens platform t) }
  generalize s.source.afterReference (referenceName t.text) t.owner = u
    at hstream ⊢
  have hcursor : u.cursor = s.source.cursor := congrArg (·.1) hstream
  have hexpanded : u.expanded = s.source.expanded :=
    congrArg (·.2.2.1) hstream
  rw [← hcursor] at h
  rw [← hexpanded] at hfresh
  obtain ⟨hlength, hsplice, -⟩ :=
    drop_splice a h (s.valueTokens platform t)
  refine (Edits.aside hstream).tail ?_
  rw [hsplice]
  refine .value u ?_ (hlength.symm ▸ hfresh) hk
    (valueTokens_standsFor platform s t)
  rw [← h, List.take_append_drop]

/-- So is every one that gives way. -/
theorem Substitutions.edits {platform : Platform} {s s' : State}
    (h : Substitutions platform s s') : Edits s.source s'.source := by
  induction h with
  | refl => exact .refl
  | tail _ hstep ih =>
      cases hstep with
      | mk a hat hfresh hk =>
          exact ih.trans (substitute_edits platform _ a hat hfresh hk)

end Values

-- ============================================================= expansion

section Expansion

variable (env : Environment) (s : State) (a : Ahead)

/-- Asking for a file leaves the stream and its files as they are; the tokens
that it gives are kept for its path. -/
theorem openInclude_stream (resolver : Resolver) (source : Source)
    (name : String) (owner : Nat) :
    let opened := State.openInclude resolver source name owner
    opened.2.2.cursor = source.cursor ∧ opened.2.2.chain = source.chain
      ∧ opened.2.2.expanded = source.expanded
      ∧ source.cache.Grows opened.2.2.cache
      ∧ ∀ tokens, opened.2.1 = some tokens →
        ∃ path, opened.1 = some path
          ∧ opened.2.2.cache.get? path = some tokens := by
  dsimp only
  unfold State.openInclude
  dsimp only
  split
  · exact ⟨rfl, rfl, rfl, fun _ _ hget => hget, nofun⟩
  rename_i path _
  unfold State.tokensAt
  dsimp only
  split
  · rename_i kept hkept
    exact ⟨rfl, rfl, rfl, fun _ _ hget => hget,
      fun tokens htokens => ⟨path, rfl, hkept.trans htokens⟩⟩
  rename_i hnone
  split
  · exact ⟨rfl, rfl, rfl, fun _ _ hget => hget, nofun⟩
  · exact ⟨rfl, rfl, rfl, TokenCache.grows_insert _ path _,
      fun tokens htokens => ⟨path, rfl,
        (TokenCache.get?_insert_of_none hnone _).trans htokens⟩⟩

theorem includeAt_edits (hfresh : s.source.expanded ≤ a.skipped)
    (hk : (s.source.cursor.peekAhead a).kind = .inclusion) :
    Edits s.source ((s.includeAt env a
      (s.source.cursor.peekAhead a)).markExpanded a).source := by
  have hmark : Edits s.source (s.markExpanded a).source :=
    .single (.aside _ rfl rfl (Nat.le_max_left _ _) fun _ _ hget => hget)
  unfold State.includeAt
  split
  · exact hmark
  split
  · exact hmark
  rename_i call _
  dsimp only
  obtain ⟨hcursor, hchain, hexpanded, hcache, htokens⟩ :=
    openInclude_stream env.resolver s.source call.file
      (s.source.cursor.peekAhead a).owner
  generalize State.openInclude env.resolver s.source call.file
    (s.source.cursor.peekAhead a).owner = opened at *
  obtain ⟨path, tokens, source⟩ := opened
  dsimp only at hcursor hchain hexpanded hcache htokens ⊢
  cases tokens with
  | none =>
      refine .single (.aside _ hcursor hchain ?_ hcache)
      rw [← hexpanded]
      exact Nat.le_max_left _ _
  | some tokens =>
      obtain ⟨path, rfl, hget⟩ := htokens tokens rfl
      have hasked : Edit s.source source := .aside _ hcursor hchain
        (Nat.le_of_eq hexpanded.symm) hcache
      refine .tail (.single hasked) ?_
      rw [← hexpanded] at hfresh
      rw [← hcursor] at hk ⊢
      exact .file source a hfresh hk ⟨rfl, rfl, rfl, rfl⟩ hget

theorem expandAt_edits (includes : Bool) :
    Edits s.source (s.expandAt env a includes).source := by
  rcases expandAt_cases env s a includes with hsame | ⟨hfresh, u, hu, hexpand⟩
  · rw [hsame]
  rw [hexpand]
  split
  · refine hu.edits.trans ?_
    unfold State.expandInclude
    dsimp only
    split
    case isTrue hk =>
      exact includeAt_edits env u a (hu.expanded.symm ▸ hfresh) hk
    case isFalse =>
      exact .single (.aside _ rfl rfl (Nat.le_max_left _ _)
        fun _ _ hget => hget)
  · exact hu.edits

theorem expandNext_edits : Edits s.source (s.expandNext env).source := by
  unfold State.expandNext
  split
  · exact expandAt_edits env s .nearest true
  · exact .refl

end Expansion

-- ============================================================ directives

section Directives

variable {env : Environment} {live : Bool} {steps : Nat} {a : Ahead}
  {s s' : State} {t : Token} {o : Operands} {out : Outcome}

/-- The source is edited; the record of lines stays as it was. -/
structure Edited (s s' : State) : Prop where
  source : Edits s.source s'.source
  lines : s'.findings.lines = s.findings.lines

namespace Edited

theorem refl (s : State) : Edited s s := ⟨.refl, rfl⟩

theorem trans {s'' : State} (h : Edited s s') (h' : Edited s' s'') :
    Edited s s'' := ⟨h.source.trans h'.source, h'.lines.trans h.lines⟩

/-- The stream, its files and the record of lines stay as they were. -/
theorem aside (hstream : s'.source.stream = s.source.stream)
    (hlines : s'.findings.lines = s.findings.lines) : Edited s s' :=
  ⟨Edits.aside hstream, hlines⟩

end Edited

theorem takeCondition_edited
    (h : s.takeCondition env steps live = some (s', o)) : Edited s s' := by
  refine ⟨?_, (takeCondition_readsOn h).lines⟩
  obtain ⟨⟨u, o'⟩, hu, he⟩ := Option.map_eq_some_iff.1 h
  cases he
  exact (readCondition_substitutions hu).1.edits.trans (Edits.aside rfl)

theorem takeLine_edited (h : s.takeLine env steps live = some (s', o)) :
    Edited s s' := by
  obtain ⟨⟨u, o'⟩, hu, he⟩ := Option.map_eq_some_iff.1 h
  cases he
  have hread := (readLine_substitutions hu).1
  exact ⟨hread.edits.trans (Edits.aside rfl), hread.readsOn.lines⟩

/-- A directive of branches may read a condition; then the open scopes change
or a fault is recorded. -/
theorem branch_cases (h : s.directive env steps t = some out)
    (hb : isBranch (.ofWord t.text) = true) :
    ∃ u, (u = s ∨ ∃ live o, s.takeCondition env steps live = some (u, o))
      ∧ ((∃ n, out.state = { u with nesting := n })
        ∨ ∃ fault, out.state = u.addError fault t) := by
  unfold State.directive at h
  dsimp only at h
  cases hd : Directive.ofWord t.text with
  | ifThen =>
      rw [hd] at h
      obtain ⟨s', hs', rfl⟩ := Option.map_eq_some_iff.1 h
      obtain ⟨⟨u, condition⟩, hu, he⟩ := Option.bind_eq_some_iff.1 hs'
      cases he
      exact ⟨u, Or.inr ⟨_, _, hu⟩, Or.inl ⟨_, rfl⟩⟩
  | elseIf =>
      rw [hd] at h
      obtain ⟨s', hs', rfl⟩ := Option.map_eq_some_iff.1 h
      unfold State.elseIf at hs'
      split at hs'
      · obtain ⟨⟨u, condition⟩, hu, rfl⟩ := Option.map_eq_some_iff.1 hs'
        exact ⟨u, Or.inr ⟨_, _, hu⟩, Or.inr ⟨_, rfl⟩⟩
      · obtain ⟨⟨u, condition⟩, hu, he⟩ := Option.bind_eq_some_iff.1 hs'
        cases he
        exact ⟨u, Or.inr ⟨_, _, hu⟩, Or.inl ⟨_, rfl⟩⟩
  | otherwise =>
      rw [hd] at h
      cases h
      refine ⟨s, Or.inl rfl, ?_⟩
      dsimp only
      unfold State.otherwise
      split
      · exact Or.inr ⟨_, rfl⟩
      · exact Or.inl ⟨_, rfl⟩
  | endIf =>
      rw [hd] at h
      cases h
      refine ⟨s, Or.inl rfl, ?_⟩
      dsimp only
      unfold State.endIf
      split
      · exact Or.inr ⟨_, rfl⟩
      · exact Or.inl ⟨_, rfl⟩
  | thenPart => rw [hd] at hb; cases hb
  | globalDefine => rw [hd] at hb; cases hb
  | scopedDefine => rw [hd] at hb; cases hb
  | undefine => rw [hd] at hb; cases hb
  | analyzeSuspend => rw [hd] at hb; cases hb
  | analyzeResume => rw [hd] at hb; cases hb
  | message => rw [hd] at hb; cases hb
  | other => rw [hd] at hb; cases hb

/-- What a directive reads: nothing, a condition, or a line of operands. -/
def ReadsOperands (env : Environment) (steps : Nat) (s u : State) : Prop :=
  u = s ∨ (∃ live o, s.takeCondition env steps live = some (u, o))
    ∨ ∃ live o, s.takeLine env steps live = some (u, o)

/-- The operands are read, and then neither the stream nor the record of lines
is changed. -/
def OnlyReads (env : Environment) (steps : Nat) (s s' : State) : Prop :=
  ∃ u, ReadsOperands env steps s u ∧ s'.source.stream = u.source.stream
    ∧ s'.findings.lines = u.findings.lines

theorem OnlyReads.refl (s : State) : OnlyReads env steps s s :=
  ⟨s, Or.inl rfl, rfl, rfl⟩

theorem takeLine_onlyReads (h : s.takeLine env steps live = some (s', o)) :
    OnlyReads env steps s s' :=
  ⟨s', Or.inr (Or.inr ⟨live, o, h⟩), rfl, rfl⟩

theorem OnlyReads.aside (h : OnlyReads env steps s s') {u : State}
    (hstream : u.source.stream = s'.source.stream)
    (hlines : u.findings.lines = s'.findings.lines) :
    OnlyReads env steps s u := by
  obtain ⟨v, hv, hstream', hlines'⟩ := h
  exact ⟨v, hv, hstream.trans hstream', hlines.trans hlines'⟩

theorem changeItem?_aside {id : ItemId} {f : Item → Item}
    (h : s.changeItem? id f = some s') :
    s'.source = s.source ∧ s'.findings.lines = s.findings.lines := by
  unfold State.changeItem? at h
  split at h
  · cases h
    exact ⟨rfl, rfl⟩
  · cases h

theorem branch_onlyReads (h : s.directive env steps t = some out)
    (hb : isBranch (.ofWord t.text) = true) :
    OnlyReads env steps s out.state := by
  obtain ⟨u, hread, hdone⟩ := branch_cases h hb
  have hreads : ReadsOperands env steps s u := by
    rcases hread with rfl | hcondition
    · exact Or.inl rfl
    · exact Or.inr (Or.inl hcondition)
  rcases hdone with ⟨n, hn⟩ | ⟨fault, hf⟩
  · rw [hn]
    exact ⟨u, hreads, rfl, rfl⟩
  · rw [hf]
    exact ⟨u, hreads, rfl, rfl⟩

theorem defineName_onlyReads {isGlobal : Bool}
    (h : s.defineName env steps t isGlobal = some out) :
    OnlyReads env steps s out.state := by
  obtain ⟨⟨u, operands⟩, hu, h⟩ := Option.bind_eq_some_iff.1 h
  have hread := takeLine_onlyReads hu
  dsimp only at h
  split at h
  · cases h
    exact hread
  · cases h
    exact hread.aside rfl rfl

theorem undefineName_onlyReads (h : s.undefineName env steps t = some out) :
    OnlyReads env steps s out.state := by
  obtain ⟨⟨u, operands⟩, hu, h⟩ := Option.bind_eq_some_iff.1 h
  have hread := takeLine_onlyReads hu
  dsimp only at h
  split at h
  · cases h
    exact hread
  · cases h
    exact hread.aside rfl rfl

theorem openSection_onlyReads (h : s.openSection env steps t = some s') :
    OnlyReads env steps s s' := by
  obtain ⟨⟨u, operands⟩, hu, h⟩ := Option.bind_eq_some_iff.1 h
  cases h
  exact (takeLine_onlyReads hu).aside rfl rfl

theorem endSection_onlyReads (h : s.endSection env steps t = some out) :
    OnlyReads env steps s out.state := by
  obtain ⟨⟨u, operands⟩, hu, h⟩ := Option.bind_eq_some_iff.1 h
  have hread := takeLine_onlyReads hu
  dsimp only at h
  split at h
  · cases h
    exact hread.aside rfl rfl
  · rename_i scope nesting _
    have hclosed : OnlyReads env steps s { u with nesting } :=
      hread.aside rfl rfl
    split at h
    · cases h
      exact hclosed
    · split at h
      · rename_i hset
        cases h
        obtain ⟨hsource, hlines⟩ := changeItem?_aside hset
        exact hclosed.aside (congrArg Source.stream hsource) hlines
      · cases h
        exact hclosed

/-- A directive reads its operands; the rest of what it does is beside the
stream. -/
theorem directive_onlyReads (h : s.directive env steps t = some out) :
    OnlyReads env steps s out.state := by
  by_cases hb : isBranch (.ofWord t.text) = true
  · exact branch_onlyReads h hb
  have hline : ∀ {live : Bool} {out : Outcome},
      ((s.takeLine env steps live).map (·.1)).map
        (fun s => ({ state := s } : Outcome)) = some out →
      OnlyReads env steps s out.state := by
    intro live out h
    obtain ⟨u, hu, rfl⟩ := Option.map_eq_some_iff.1 h
    obtain ⟨⟨u', operands⟩, hu', rfl⟩ := Option.map_eq_some_iff.1 hu
    exact takeLine_onlyReads hu'
  unfold State.directive at h
  dsimp only at h
  cases hd : Preprocess.Directive.ofWord t.text with
  | ifThen => exact absurd (by rw [hd]; rfl) hb
  | elseIf => exact absurd (by rw [hd]; rfl) hb
  | otherwise => exact absurd (by rw [hd]; rfl) hb
  | endIf => exact absurd (by rw [hd]; rfl) hb
  | thenPart | other =>
      rw [hd] at h
      cases h
      exact .refl s
  | globalDefine | scopedDefine =>
      rw [hd] at h
      dsimp only at h
      split at h
      · exact hline h
      · exact defineName_onlyReads h
  | undefine =>
      rw [hd] at h
      dsimp only at h
      split at h
      · exact hline h
      · exact undefineName_onlyReads h
  | analyzeSuspend =>
      rw [hd] at h
      dsimp only at h
      split at h
      · exact hline h
      · obtain ⟨u, hu, rfl⟩ := Option.map_eq_some_iff.1 h
        exact openSection_onlyReads hu
  | analyzeResume =>
      rw [hd] at h
      dsimp only at h
      split at h
      · exact hline h
      · exact endSection_onlyReads h
  | message =>
      rw [hd] at h
      dsimp only at h
      split at h
      · exact hline h
      · exact hline h

/-- To read operands is to edit the source. -/
theorem OnlyReads.edited (h : OnlyReads env steps s s') : Edited s s' := by
  obtain ⟨u, hread, hstream, hlines⟩ := h
  refine Edited.trans ?_ (.aside hstream hlines)
  rcases hread with rfl | ⟨live, o, hu⟩ | ⟨live, o, hu⟩
  · exact .refl u
  · exact takeCondition_edited hu
  · exact takeLine_edited hu

end Directives

-- ================================================================== steps

section Steps

variable {env : Environment} {steps : Nat} {s s' : State} {t : Token}

/-- Of what a token says, only a directive reads on. -/
theorem look_onlyReads {ended : Option Statement} {out : Outcome}
    (h : s.look env steps t ended = some out) :
    OnlyReads env steps s out.state := by
  have hrefl : OnlyReads env steps s s := .refl s
  have hspace : OnlyReads env steps s s.space := hrefl.aside rfl rfl
  unfold State.look at h
  split at h
  · cases h
    exact hrefl
  split at h
  · exact directive_onlyReads h
  split at h
  · cases h
    exact hrefl
  split at h
  · cases h
    exact hspace
  · cases h
    exact hspace
  · cases h
    exact hspace
  · split at h
    · rename_i statement
      cases h
      have hrests := Rests.endStatement s.space env statement t
      exact hspace.aside (congrArg Source.stream hrests.source) hrests.lines
    · cases h
      exact hspace
  · cases h
    exact hrefl
  · cases h
    exact hrefl
  · cases h
    exact hrefl
  · cases h
    have hlearns := Learns.readToken env s t
    exact hrefl.aside (congrArg Source.stream hlearns.source) hlearns.lines

/-- The record of a line or of a statement leaves the source as it is. -/
theorem observe_source (s : State) (t : Token) (skipped : Bool) :
    (s.observe t skipped).2.source = s.source := by
  unfold State.observe
  split
  · rfl
  · split
    · rfl
    · unfold State.stopStatement
      dsimp only
      split <;> rfl
  · rfl

/-- A token ends no line but its own. -/
theorem observe_lines (s : State) (t : Token) (skipped : Bool) :
    (s.observe t skipped).2.findings.lines = s.findings.lines
      ∨ (t.kind = .eol
        ∧ (s.observe t skipped).2 = s.recordLine (s.rootLine t)) := by
  unfold State.observe
  split
  · rename_i hk
    exact Or.inr ⟨hk, rfl⟩
  · split
    · exact Or.inl rfl
    · unfold State.stopStatement
      dsimp only
      split <;> exact Or.inl rfl
  · exact Or.inl rfl

/-- After a token was observed, its step goes on by edits. -/
theorem step_edited (h : s.step env steps t = some s') :
    ∃ skipped, Edited (s.observe t skipped).2 s' := by
  have hnext : ∀ u : State, Edited u (u.expandNext env) := fun u =>
    ⟨expandNext_edits env u, (expandNext_readsOn env u).lines⟩
  rcases step_cases h with ⟨-, u, rfl, rfl⟩ | ⟨-, out, hl, rfl⟩
  · have hskip : ∀ u : State, Edited u
        { u with source := { u.source with skip := u.source.skip - 1 } } :=
      fun _ => .aside rfl rfl
    exact ⟨true, (hskip _).trans (hnext _)⟩
  · exact ⟨false, (look_onlyReads hl).edited.trans (hnext _)⟩

/-- A step is a row of edits of the source. -/
theorem step_edits (h : s.step env steps t = some s') :
    Edits s.source s'.source := by
  obtain ⟨skipped, hedited⟩ := step_edited h
  have hsource := hedited.source
  rw [observe_source] at hsource
  exact hsource

/-- A run loses no file of the chain. -/
theorem run_grows (h : s.run env steps = some s') :
    s.source.chain.Grows s'.source.chain := by
  have hadvance : ∀ {u : State}, s.advance? = some u →
      u.source.chain = s.source.chain := by
    intro u hu
    obtain ⟨cursor, -, rfl⟩ := Option.map_eq_some_iff.1 hu
    rfl
  induction steps generalizing s with
  | zero => cases h
  | succ steps ih =>
      unfold State.run at h
      split at h
      · cases h
        exact fun _ _ hf => hf
      rename_i u hu
      rw [← hadvance hu]
      dsimp only at h
      split at h
      · cases h
        exact fun _ _ hf => hf
      split at h
      · cases h
      rename_i v hv
      exact fun i f hf => ih h (fun {w} hw => by
        obtain ⟨cursor, -, rfl⟩ := Option.map_eq_some_iff.1 hw
        rfl) i f ((step_edits hv).grows i f hf)

/-- The end leaves the source as it is, and records the last line. -/
theorem finish_leaves (env : Environment) (s : State) :
    (s.finish env).source = s.source
      ∧ (s.finish env).findings.lines = (s.recordLine
        (s.rootLine s.source.cursor.current)).findings.lines := by
  have hleave : ∀ (line : Nat) (scopes : List OpenScope) (u : State),
      (State.leaveAll line u scopes).source = u.source
        ∧ (State.leaveAll line u scopes).findings.lines = u.findings.lines := by
    intro line scopes
    induction scopes with
    | nil => exact fun _ => ⟨rfl, rfl⟩
    | cons o around ih =>
        intro u
        have hone : (State.leave line u o (around.length + 1)).source = u.source
            ∧ (State.leave line u o (around.length + 1)).findings.lines
              = u.findings.lines := by
          unfold State.leave
          split
          · unfold State.setEndLine? State.changeItem?
            split <;> exact ⟨rfl, rfl⟩
          · split <;> exact ⟨rfl, rfl⟩
        exact ⟨(ih _).1.trans hone.1, (ih _).2.trans hone.2⟩
  have hlast : ∀ (u : State) (eof : Token),
      (u.endLast env eof).source = u.source
        ∧ (u.endLast env eof).findings.lines = u.findings.lines := by
    intro u eof
    unfold State.endLast
    dsimp only
    split
    · exact ⟨rfl, rfl⟩
    · have hrests := Rests.endStatement
        { u with analysis := { u.analysis with statement := {} } } env
        u.analysis.statement eof
      exact ⟨hrests.source, hrests.lines⟩
  unfold State.finish
  dsimp only
  exact ⟨(hleave _ _ _).1.trans (hlast _ _).1,
    (hleave _ _ _).2.trans (hlast _ _).2⟩

end Steps

end Parse

end AblOutline
