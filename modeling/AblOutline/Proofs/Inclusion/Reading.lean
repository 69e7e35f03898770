/-
What the tokens of a stream tell of files. A token of the stream is of a file
that is there, and one of the file being read is as it was read or stands for a
reference (`Known`). As long as no file is put in, values and directives find
items at such tokens: operands and references are tokens of the stream, and a
value belongs where its reference does (`Notes`). So does all that is done about
a token before the next one is expanded (`takeToken_notes`).
-/
import AblOutline.Proofs.Expansion
import AblOutline.Proofs.Inclusion.Marks

namespace AblOutline.Parse

open Preprocess

-- =================================================================== stream

section Stream

variable {text : String} {c : IncludeChain} {s : Source} {a : Ahead} {t : Token}

/-- The token is one of `text`, or stands for a reference of it. -/
inductive ReadIn (text : String) (t : Token) : Prop where
  | token (h : t ∈ tokenize text)
  | value {u : Token} (hu : u ∈ tokenize text) (hk : u.kind = .reference)
      (h : StandsFor u t)

/-- The token is of one of the files; if it is of the first one, it is read in
`text`. -/
structure Known (text : String) (c : IncludeChain) (t : Token) : Prop where
  owner : t.owner < c.size
  own : t.owner = 0 → ReadIn text t

theorem Rewritten.readIn {us : List Token}
    (h : Rewritten (tokenize text) us) (ht : t ∈ us) : ReadIn text t := by
  have hread : ∀ {base us}, Rewritten base us → base ⊆ tokenize text →
      t ∈ us → ReadIn text t := by
    intro base us h
    induction h with
    | nil => exact fun _ ht => absurd ht List.not_mem_nil
    | kept u h ih =>
        intro hbase ht
        obtain ⟨hu, hbase⟩ := List.cons_subset.1 hbase
        rcases List.mem_cons.1 ht with rfl | ht
        · exact .token hu
        · exact ih hbase ht
    | value hk hrun h ih =>
        intro hbase ht
        obtain ⟨hu, hbase⟩ := List.cons_subset.1 hbase
        rcases List.mem_append.1 ht with ht | ht
        · exact .value hu hk (hrun t ht)
        · exact ih hbase ht
  exact hread h (List.Subset.refl _) ht

theorem Intact.mem_known (h : Intact text s) (ht : t ∈ s.cursor.tokens) :
    Known text s.chain t :=
  ⟨h.known t ht, fun hzero =>
    h.own.readIn (List.mem_filter.2 ⟨ht, beq_iff_eq.2 hzero⟩)⟩

/-- The tokens are intact, and the files are those of `c`. -/
structure IntactOver (text : String) (c : IncludeChain) (s : Source) :
    Prop where
  intact : Intact text s
  chain : s.chain = c

namespace IntactOver

theorem known (h : IntactOver text c s) (ht : t ∈ s.cursor.tokens) :
    Known text c t :=
  h.chain ▸ h.intact.mem_known ht

/-- A token that is seen ahead is a known one, unless it marks the end. -/
theorem known_peekAhead (h : IntactOver text c s)
    (hk : (s.cursor.peekAhead a).isEof = false) :
    Known text c (s.cursor.peekAhead a) :=
  h.known (List.mem_append_right _ (peekAhead_mem h.intact.beyond hk))

theorem known_ahead (h : IntactOver text c s) {n : Nat}
    (ht : t ∈ s.cursor.ahead.drop n) : Known text c t :=
  h.known (List.mem_append_right _ (List.mem_of_mem_drop ht))

end IntactOver

end Stream

/-- The source is edited; no file is put in. -/
structure Expands (p : Token → Prop) (s s' : State) : Prop where
  edits : Edits s.source s'.source
  notes : Notes p s s'

namespace Expands

variable {p : Token → Prop} {s s' s'' : State}

theorem refl (s : State) : Expands p s s := ⟨.refl, .refl s⟩

theorem trans (h : Expands p s s') (h' : Expands p s' s'') :
    Expands p s s'' :=
  ⟨h.edits.trans h'.edits, h.notes.trans h'.notes⟩

end Expands

theorem IntactOver.expands {text : String} {c : IncludeChain}
    {p : Token → Prop} {s s' : State} (h : IntactOver text c s.source)
    (he : Expands p s s') : IntactOver text c s'.source :=
  ⟨h.intact.edits he.edits, he.notes.chain.trans h.chain⟩

-- What follows is read of a source that is intact over the files of `c`; all
-- that can be known of its tokens is that they are of the sort `p`.
variable {text : String} {c : IncludeChain} {p : Token → Prop}
  (hp : ∀ t, Known text c t → p t)
include hp

-- ==================================================================== values

section Values

variable {platform : Platform} {s s' : State}

theorem substitute_expands (hi : IntactOver text c s.source) {a : Ahead}
    {t : Token} {rest : List Token}
    (h : s.source.cursor.ahead.drop a.skipped = t :: rest)
    (hfresh : s.source.expanded ≤ a.skipped) (hk : t.kind = .reference) :
    Expands p s (s.substitute platform a t) := by
  refine ⟨substitute_edits platform s a h hfresh hk, ?_⟩
  have ht : p t := hp t (hi.known_ahead (h ▸ List.mem_cons_self))
  have hadd : Notes p s (s.addItem (referenceName t.text) t
      (.nameUse (s.source.referenceValue? platform (referenceName t.text)
        t).isSome)) := .addItem s _ ht trivial
  refine hadd.trans (.aside ?_ rfl rfl)
  exact congrArg (·.2.1) (afterReference_stream s.source _ _)

/-- References that give way are tokens of the files that are there. -/
theorem Substitutions.expands (h : Substitutions platform s s')
    (hi : IntactOver text c s.source) : Expands p s s' := by
  induction h with
  | refl => exact .refl s
  | tail _ hstep ih =>
      cases hstep with
      | mk a hat hfresh hk =>
          exact ih.trans
            (substitute_expands hp (hi.expands ih) hat hfresh hk)

/-- So is a token that stood ahead meanwhile. -/
theorem Met.known {t : Token} (h : Met platform s s' t)
    (hi : IntactOver text c s.source) : p t := by
  obtain ⟨u, a, hu, -, rfl⟩ := h.ahead
  exact hp _ ((hi.expands (hu.expands hp hi)).known_peekAhead h.isEof)

end Values

-- ================================================================== operands

section Operands

variable {env : Environment} {live : Bool} {steps : Nat}
  {a : Ahead} {s s' : State} {o : Operands}

theorem takeCondition_notes (hi : IntactOver text c s.source)
    (h : s.takeCondition env steps live = some (s', o)) :
    Notes p s s' := by
  obtain ⟨⟨u, o'⟩, hu, he⟩ := Option.map_eq_some_iff.1 h
  cases he
  have hread := (readCondition_substitutions hu).1
  exact (hread.expands hp hi).notes.trans (.aside rfl rfl rfl)

theorem takeLine_notes (hi : IntactOver text c s.source)
    (h : s.takeLine env steps live = some (s', o)) :
    Notes p s s'
      ∧ ∀ t, o.first? = some t → p t := by
  obtain ⟨⟨u, o'⟩, hu, he⟩ := Option.map_eq_some_iff.1 h
  cases he
  obtain ⟨hread, hmet⟩ := readLine_substitutions hu
  exact ⟨(hread.expands hp hi).notes.trans (.aside rfl rfl rfl),
    fun t ht => (hmet t (List.mem_of_find?_eq_some ht)).known hp hi⟩

end Operands

-- ================================================================ directives

section Directives

variable {env : Environment} {steps : Nat} {s s' : State}
  {t : Token} {out : Outcome}

theorem branch_notes (hi : IntactOver text c s.source)
    (h : s.directive env steps t = some out)
    (hb : isBranch (.ofWord t.text) = true) :
    Notes p s out.state := by
  obtain ⟨u, hread, hdone⟩ := branch_cases h hb
  have hnotes : Notes p s u := by
    rcases hread with rfl | ⟨live, o, hu⟩
    · exact .refl u
    · exact takeCondition_notes hp hi hu
  refine hnotes.trans ?_
  rcases hdone with ⟨n, hn⟩ | ⟨fault, hf⟩
  · rw [hn]
    exact .aside rfl rfl rfl
  · rw [hf]
    exact .addErrorAt u fault t _ _

theorem defineName_notes (hi : IntactOver text c s.source) {isGlobal : Bool}
    (h : s.defineName env steps t isGlobal = some out) :
    Notes p s out.state := by
  obtain ⟨⟨u, operands⟩, hu, h⟩ := Option.bind_eq_some_iff.1 h
  obtain ⟨hnotes, hfirst⟩ := takeLine_notes hp hi hu
  refine hnotes.trans ?_
  dsimp only at h
  split at h
  · cases h
    exact .refl u
  · rename_i name hname
    cases h
    refine .trans (.aside ?_ ?_ ?_) (.addItem _ _ (hfirst name hname) trivial)
    all_goals rfl

theorem undefineName_notes (hi : IntactOver text c s.source)
    (h : s.undefineName env steps t = some out) :
    Notes p s out.state := by
  obtain ⟨⟨u, operands⟩, hu, h⟩ := Option.bind_eq_some_iff.1 h
  obtain ⟨hnotes, hfirst⟩ := takeLine_notes hp hi hu
  refine hnotes.trans ?_
  dsimp only at h
  split at h
  · cases h
    exact .refl u
  · rename_i name hname
    cases h
    refine .trans (.aside ?_ ?_ ?_) (.addItem _ _ (hfirst name hname) trivial)
    all_goals rfl

theorem openSection_notes (hi : IntactOver text c s.source)
    (ht : p t)
    (h : s.openSection env steps t = some s') :
    Notes p s s' := by
  obtain ⟨⟨u, operands⟩, hu, h⟩ := Option.bind_eq_some_iff.1 h
  cases h
  exact (takeLine_notes hp hi hu).1.trans
    ((Notes.addItem u _ ht (by trivial)).trans (.openScope _ _ t))

theorem endSection_notes (hi : IntactOver text c s.source)
    (h : s.endSection env steps t = some out) :
    Notes p s out.state := by
  obtain ⟨⟨u, operands⟩, hu, h⟩ := Option.bind_eq_some_iff.1 h
  refine (takeLine_notes hp hi hu).1.trans ?_
  dsimp only at h
  split at h
  · cases h
    exact .addErrorAt u _ t _ _
  · rename_i scope nesting _
    have hclosed : Notes p u { u with nesting } :=
      .aside rfl rfl rfl
    split at h
    · cases h
      exact hclosed
    · split at h
      · rename_i hset
        cases h
        exact hclosed.trans (.ended hset)
      · cases h
        exact hclosed

/-- A directive puts in no file. -/
theorem directive_notes (hi : IntactOver text c s.source)
    (ht : p t)
    (h : s.directive env steps t = some out) :
    Notes p s out.state := by
  by_cases hb : isBranch (.ofWord t.text) = true
  · exact branch_notes hp hi h hb
  have hline : ∀ {live : Bool} {out : Outcome},
      ((s.takeLine env steps live).map (·.1)).map
        (fun s => ({ state := s } : Outcome)) = some out →
      Notes p s out.state := by
    intro live out h
    obtain ⟨u, hu, rfl⟩ := Option.map_eq_some_iff.1 h
    obtain ⟨⟨u', operands⟩, hu', rfl⟩ := Option.map_eq_some_iff.1 hu
    exact (takeLine_notes hp hi hu').1
  unfold State.directive at h
  dsimp only at h
  cases hd : Preprocess.Directive.ofWord t.text with
  | ifThen => exact absurd (by rw [hd]; rfl) hb
  | elseIf => exact absurd (by rw [hd]; rfl) hb
  | otherwise => exact absurd (by rw [hd]; rfl) hb
  | endIf => exact absurd (by rw [hd]; rfl) hb
  | thenPart | other =>
      rw [hd] at h
      cases h
      exact .refl s
  | globalDefine | scopedDefine =>
      rw [hd] at h
      dsimp only at h
      split at h
      · exact hline h
      · exact defineName_notes hp hi h
  | undefine =>
      rw [hd] at h
      dsimp only at h
      split at h
      · exact hline h
      · exact undefineName_notes hp hi h
  | analyzeSuspend =>
      rw [hd] at h
      dsimp only at h
      split at h
      · exact hline h
      · obtain ⟨u, hu, rfl⟩ := Option.map_eq_some_iff.1 h
        exact openSection_notes hp hi ht hu
  | analyzeResume =>
      rw [hd] at h
      dsimp only at h
      split at h
      · exact hline h
      · exact endSection_notes hp hi h
  | message =>
      rw [hd] at h
      dsimp only at h
      split at h
      · exact hline h
      · exact hline h

end Directives

-- ===================================================================== looks

section Looks

variable {env : Environment} {steps : Nat}
  {s s' : State} {t : Token}

omit hp in
theorem observe_notes (skipped : Bool) :
    Notes p s (s.observe t skipped).2 := by
  have hstop : Notes p s s.stopStatement.2 := by
    unfold State.stopStatement
    dsimp only
    split <;> exact .emptied s rfl
  unfold State.observe
  split
  · exact .aside rfl rfl rfl
  · split
    · exact .refl s
    · exact hstop
  · exact .refl s

theorem look_notes (hi : IntactOver text c s.source)
    (ht : p t)
    (hst : s.analysis.statement.IsFrom p)
    {ended : Option Statement}
    (hended : ∀ st, ended = some st → st.IsFrom p)
    {out : Outcome} (h : s.look env steps t ended = some out) :
    Notes p s out.state := by
  have hspace : Notes p s s.space := .aside rfl rfl rfl
  unfold State.look at h
  split at h
  · cases h
    exact .refl s
  split at h
  · exact directive_notes hp hi ht h
  split at h
  · cases h
    exact .refl s
  split at h
  · cases h
    exact hspace
  · cases h
    exact hspace
  · cases h
    exact hspace
  · split at h
    · rename_i statement
      cases h
      exact hspace.trans (.endStatement _ (hended statement rfl) env t)
    · cases h
      exact hspace
  · cases h
    exact .refl s
  · cases h
    exact .refl s
  · cases h
    exact .refl s
  · cases h
    exact .readToken env s ht hst

/-- Before the next token is expanded, no file is put in. -/
theorem takeToken_notes (hi : IntactOver text c s.source)
    (ht : p t)
    (hst : s.analysis.statement.IsFrom p)
    (h : s.takeToken env steps t = some s') :
    Notes p s s' := by
  have hsource := observe_source s t (decide (0 < s.source.skip))
  have hobserve : Notes p s
      (s.observe t (decide (0 < s.source.skip))).2 := observe_notes _
  have hended : ∀ st, (s.observe t (decide (0 < s.source.skip))).1 = some st →
      st.IsFrom p :=
    fun st hst' => observe_ended hst' ▸ hst
  unfold State.takeToken at h
  dsimp only at h
  split at h
  · cases h
    exact hobserve.trans (.aside rfl rfl rfl)
  · obtain ⟨out, hout, rfl⟩ := Option.map_eq_some_iff.1 h
    have hi' : IntactOver text c
        (s.observe t (decide (0 < s.source.skip))).2.source := hsource.symm ▸ hi
    exact hobserve.trans
      (look_notes hp hi' ht (hobserve.statement hst) hended hout)

omit hp in
/-- And the source is edited only. -/
theorem takeToken_edits (h : s.takeToken env steps t = some s') :
    Edits s.source s'.source := by
  have hsource := observe_source s t (decide (0 < s.source.skip))
  unfold State.takeToken at h
  dsimp only at h
  rw [← hsource]
  split at h
  · cases h
    exact Edits.aside rfl
  · obtain ⟨out, hout, rfl⟩ := Option.map_eq_some_iff.1 h
    exact (look_onlyReads hout).edited.source

end Looks

-- ====================================================================== ends

section Ends

omit hp

theorem leaveAll_notes (line : Nat) (s : State) (scopes : List OpenScope) :
    Notes p s (s.leaveAll line scopes) := by
  induction scopes generalizing s with
  | nil => exact .refl s
  | cons o around ih =>
      refine Notes.trans ?_ (ih _)
      unfold State.leave
      split
      · rename_i item _
        cases hset : s.setEndLine? item line with
        | none => exact .refl s
        | some u => exact .ended hset
      · split
        · exact .addErrorAt s _ _ _ _
        · exact .refl s

/-- All that is done at the end of the tokens. -/
theorem finish_notes (env : Environment) {s : State}
    (hst : s.analysis.statement.IsFrom p) : Notes p s (s.finish env) := by
  have hlast : ∀ (u : State) (eof : Token),
      u.analysis.statement.IsFrom p → Notes p u (u.endLast env eof) := by
    intro u eof hu
    unfold State.endLast State.takeStatement
    dsimp only
    split
    · exact .emptied u rfl
    · exact (Notes.emptied u rfl).trans (.endStatement _ hu env eof)
  unfold State.finish
  dsimp only
  have hline : Notes p s (s.recordLine (s.rootLine s.source.cursor.current)) :=
    .aside rfl rfl rfl
  exact hline.trans ((hlast (s.recordLine _) _ hst).trans
    (leaveAll_notes _ _ _))

end Ends

end AblOutline.Parse
