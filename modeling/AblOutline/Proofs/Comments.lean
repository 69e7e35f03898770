/-
Comments are white space to a parse. A text without directives, with nothing to
expand, and the text without its comments have the same items and the same
errors: the two parses stay level (`Even`) over tokens with a meaning, which
both texts have, and over gaps, which may differ. A comment right behind a dot
or a colon is the exception: the dot ends no statement, and it would with white
space behind it.
-/
import AblOutline.Proofs.Alike.Statements
import AblOutline.Proofs.Comments.Blanking
import AblOutline.Proofs.Comments.Depths
import AblOutline.Proofs.Masked

namespace AblOutline

-- ================================================================= pieces

section Pieces

variable {ps ps' : List Piece}

theorem UpToGaps.significant_eq (h : UpToGaps ps ps') :
    significant ps = significant ps' := by
  induction h with
  | nil => rfl
  | told hp _ ih =>
      rw [Parse.significant_cons, Parse.significant_cons, ih]
  | gap hgap hgap' _ _ ih =>
      rw [significant_append, significant_append, ih,
        hgap.1.significant_eq_nil, hgap'.1.significant_eq_nil]

theorem UpToGaps.past_eq (h : UpToGaps ps ps') (start : Position) :
    start.past ps = start.past ps' := by
  induction h generalizing start with
  | nil => rfl
  | told hp _ ih => exact ih _
  | gap hgap hgap' hplace _ ih =>
      rw [past_append, past_append, hplace, ih]

theorem UpToGaps.plain (h : UpToGaps ps ps') (hps : ∀ p ∈ ps, p.IsPlain) :
    ∀ p ∈ ps', p.IsPlain := by
  induction h with
  | nil => exact List.forall_mem_nil _
  | told hp _ ih =>
      obtain ⟨hplain, hrest⟩ := List.forall_mem_cons.1 hps
      exact List.forall_mem_cons.2 ⟨hplain, ih hrest⟩
  | gap hgap hgap' _ _ ih =>
      exact List.forall_mem_append.2
        ⟨hgap'.1.plain, ih (List.forall_mem_append.1 hps).2⟩

/-- What lies ahead is the same in both texts. -/
theorem Parted.refl (before x : List Piece) : Parted before x x := by
  induction x generalizing before with
  | nil => exact .done
  | cons p x ih => exact .same p (ih _)

end Pieces

namespace Parse

-- =================================================================== even

/-- Two parses without branches are level, and tell the same depths. -/
structure Even (before after : List Piece) (s s' : State) : Prop
    extends Level [] before after s s' where
  depths : s.findings.errors.map (·.depth) = s'.findings.errors.map (·.depth)

section Even

variable {env : Environment} {s s' u u' : State}
  {before after ps ps' qs qs' : List Piece} {p e : Piece} {eof eof' : Token}
  {more more' : List Token} {start : Position} {offset offset' : Nat}

/-- As many scopes are open in both. -/
theorem Alike.depth_eq (h : Alike s s') (ht : Tracks s.nesting.scopes [])
    (ht' : Tracks s'.nesting.scopes []) : s.nesting.depth = s'.nesting.depth := by
  have hblocks := h.blocks
  rw [Nesting.blocks_eq ht, Nesting.blocks_eq ht'] at hblocks
  have hlength := congrArg List.length hblocks
  rw [List.length_map, List.length_map] at hlength
  exact hlength

/-- As many errors were told in both. -/
theorem Alike.errors_length (h : Alike s s') :
    s.findings.errors.length = s'.findings.errors.length := by
  have hlength := congrArg List.length h.errors
  rw [List.length_map, List.length_map] at hlength
  exact hlength

/-- Gaps are passed. -/
theorem Even.gap (env : Environment) (h : Even before after s s')
    (hf : Facing s (tokensFrom start offset qs ++ more))
    (hf' : Facing s' (tokensFrom start offset' qs' ++ more'))
    (hgap : IsGap qs ∧ qs ≠ []) (hgap' : IsGap qs' ∧ qs' ≠ []) :
    ∃ u u', GoOn env more more' s s' u u' ∧ Even before after u u' := by
  obtain ⟨u, u', hu, hu', hlevel⟩ := h.toLevel.gap env hf hf' hgap hgap'
  refine ⟨u, u', ⟨⟨hu.leads, hu'.leads⟩, ⟨hu.facing, hu'.facing⟩⟩, hlevel, ?_⟩
  rw [hu.errors, hu'.errors]
  exact h.depths

/-- A token with a meaning is taken. -/
theorem Even.told (env : Environment) (h : Even before (p :: after) s s')
    (hf : Facing s (p.token start offset :: more))
    (hf' : Facing s' (p.token start offset' :: more'))
    (hp : p.kind.isTrivia = false) (hd : p.kind ≠ .directive)
    (he : p.kind ≠ .eof) (hplain : p.IsPlain)
    (hmore : meanings more = after) (hmore' : meanings more' = after) :
    ∃ u u', GoOn env more more' s s' u u' ∧ Even (p :: before) after u u' := by
  have htold : ∀ offset, IsTold (p.token start offset) := fun _ =>
    ⟨hp, hd, hplain, beq_false_of_ne he⟩
  have hparted : Parted (p :: before) (meanings more) after :=
    hmore ▸ .refl _ _
  obtain ⟨n, hl, hn⟩ := hf.take env h.skip.1 h.live.1 (htold offset)
  obtain ⟨n', hl', hn'⟩ := hf'.take env h.skip.2 h.live.2 (htold offset')
  have hlevel : Level _ (p :: before) after
      (((s.moved (p.token start offset) more).taken env _).expandedTo n)
      (((s'.moved (p.token start offset') more').taken env _).expandedTo n') :=
    h.toLevel.taken hf hf' (htold offset) (htold offset') rfl p.piece_token
      hmore' hparted n n'
  refine ⟨_, _, ⟨⟨hl, hl'⟩, ⟨hn, hn'⟩⟩, hlevel, ?_⟩
  exact Tells.depths (taken_tells env hf.moved _) (taken_tells env hf'.moved _)
    h.depths hlevel.alike.errors_length (h.alike.depth_eq h.tracks h.blocks)

/-- Both texts are read to their ends. -/
theorem Even.upToGaps (env : Environment) (hps : UpToGaps ps ps')
    (hkinds : ∀ p ∈ ps, (p.kind ≠ .directive ∧ p.IsPlain) ∧ p.kind ≠ .eof)
    (he : e.kind = .eof) (heof : eof.piece = e ∧ eof'.piece = e)
    (hf : Facing s (tokensFrom start offset ps ++ [eof]))
    (hf' : Facing s' (tokensFrom start offset' ps' ++ [eof']))
    (h : Even before (significant ps ++ [e]) s s') :
    ∃ u u' before', GoOn env [eof] [eof'] s s' u u'
      ∧ Even before' [e] u u' := by
  have hmeanings : ∀ (start : Position) (offset : Nat) (qs : List Piece),
      meanings (tokensFrom start offset qs ++ [eof]) = significant qs ++ [e]
        ∧ meanings (tokensFrom start offset qs ++ [eof'])
          = significant qs ++ [e] := by
    intro start offset qs
    rw [meanings_tokensFrom, meanings_tokensFrom, meanings_eof he heof.1,
      meanings_eof he heof.2]
    exact ⟨rfl, rfl⟩
  induction hps generalizing s s' before start offset offset' with
  | nil => exact ⟨s, s', before, ⟨⟨.refl s, .refl s'⟩, ⟨hf, hf'⟩⟩, h⟩
  | @told p ps ps' hp hps ih =>
      obtain ⟨⟨⟨hd, hplain⟩, hne⟩, hrest⟩ := List.forall_mem_cons.1 hkinds
      rw [significant_cons, hp, if_neg Bool.false_ne_true] at h
      obtain ⟨u, u', hgo, hu⟩ := Even.told env h hf hf' hp hd hne hplain
        (hmeanings _ _ _).1
        ((hmeanings _ _ _).2.trans (hps.significant_eq ▸ rfl))
      obtain ⟨v, v', b, hgo', hv⟩ := ih hrest hgo.facing.1 hgo.facing.2 hu
      exact ⟨v, v', b, hgo.trans hgo', hv⟩
  | @gap gap gap' ps ps' hgap hgap' hplace hps ih =>
      rw [tokensFrom_append, List.append_assoc] at hf hf'
      rw [significant_append, hgap.1.significant_eq_nil] at h
      obtain ⟨u, u', hgo, hu⟩ := Even.gap env h hf hf' hgap hgap'
      have hfacing := hgo.facing.2
      rw [← hplace] at hfacing
      obtain ⟨v, v', b, hgo', hv⟩ :=
        ih (List.forall_mem_append.1 hkinds).2 hgo.facing.1 hfacing hu
      exact ⟨v, v', b, hgo.trans hgo', hv⟩

-- ==================================================================== end

/-- The errors at the end of the tokens: those of the last statement, and one
for each scope that is left. -/
theorem finish_tells (env : Environment) (hs : Sound s) :
    ∃ u, Tells s u ∧ u.nesting.depth = (s.finish env).nesting.depth
      ∧ (s.finish env).findings.errors.map (·.depth)
        = u.findings.errors.map (·.depth)
          ++ (List.range' 2 ((s.finish env).nesting.depth - 1)).reverse := by
  have hline : Still s (s.recordLine (s.rootLine s.source.cursor.current)) :=
    ⟨rfl, rfl⟩
  have hsound : Sound (s.recordLine (s.rootLine s.source.cursor.current)) :=
    hs.change (.lineEnded s _)
  have hdepth : (s.finish env).nesting.depth = _ :=
    congrArg Nesting.depth (leaveAll_nesting _ _ _)
  refine ⟨_, hline.then (endLast_tells env hsound s.source.cursor.current),
    hdepth.symm, ?_⟩
  rw [hdepth]
  exact leaveAll_depths _ (ended_sound hs)

/-- The same faults on the same lines, and the same depths. -/
theorem reported_eq {es es' : List StructureError}
    (hplace : es.map (·.place) = es'.map (·.place))
    (hdepth : es.map (·.depth) = es'.map (·.depth)) :
    es.map reported = es'.map reported := by
  induction es generalizing es' with
  | nil =>
      rw [List.map_eq_nil_iff.1 hplace.symm]
  | cons e es ih =>
      obtain ⟨e', rest, rfl, hhead, hrest⟩ := List.map_eq_cons_iff.1 hplace.symm
      rw [List.map_cons, List.map_cons, List.cons.injEq] at hdepth
      have hreported : reported e = reported e' := by
        injection hhead with hfault hline
        unfold reported
        rw [hfault, hline, hdepth.1]
      rw [List.map_cons, List.map_cons, hreported, ih hrest.symm hdepth.2]

/-- The end of the tokens tells the same in both. -/
theorem Alike.finish_reported (env : Environment) (h : Alike s s')
    (hs : Sound s) (hs' : Sound s') (ht : Tracks s.nesting.scopes [])
    (ht' : Tracks s'.nesting.scopes [])
    (hline : s.rootLine s.source.cursor.current
      = s'.rootLine s'.source.cursor.current)
    (htext : s.source.cursor.current.text = s'.source.cursor.current.text)
    (hsame : s.findings.errors.map (·.depth)
      = s'.findings.errors.map (·.depth)) :
    Alike (s.finish env) (s'.finish env)
      ∧ (s.finish env).findings.errors.map reported
        = (s'.finish env).findings.errors.map reported
      ∧ (s.finish env).nesting.depth = (s'.finish env).nesting.depth := by
  obtain ⟨hfinish, hdepth⟩ := h.finish env hs hs' ht ht' hline htext
  obtain ⟨u, htells, hu, hdepths⟩ := finish_tells env hs
  obtain ⟨u', htells', hu', hdepths'⟩ := finish_tells env hs'
  -- the scopes that are left are told of in both, so as many were told before
  have hcount : u.findings.errors.length = u'.findings.errors.length := by
    have hlength := hfinish.errors_length
    have hall := congrArg List.length hdepths
    have hall' := congrArg List.length hdepths'
    rw [List.length_map, List.length_append, List.length_map] at hall hall'
    rw [hdepth] at hall
    omega
  refine ⟨hfinish, reported_eq hfinish.errors ?_, hdepth⟩
  rw [hdepths, hdepths', hdepth,
    htells.depths htells' hsame hcount (h.depth_eq ht ht')]

end Even

/-- Two parses of texts with nothing to expand start even. -/
theorem even_start (env : Environment) (cache cache' : TokenCache)
    (path : Option String) {text text' : String}
    (h : ∀ t ∈ tokenize text, IsPlain t) (h' : ∀ t ∈ tokenize text', IsPlain t)
    (after : List Piece) :
    Even [] after (.start env cache text path) (.start env cache' text' path) := by
  obtain ⟨hbeside, hbehind, hspaced⟩ := beside_start env cache cache' path h h'
  obtain ⟨-, n, hn⟩ := facing_start env cache path h
  obtain ⟨-, n', hn'⟩ := facing_start env cache' path h'
  refine ⟨⟨hbeside, rfl, hspaced, hbehind after⟩, ?_⟩
  rw [hn, hn']
  rfl

end Parse

-- ================================================================== runs

open Parse

/-- The end mark of a text. -/
def endOf (text : String) : Token :=
  .eof (Position.origin.past (lex text.toList)) (bytesOf (lex text.toList))

/-- A text without directives, with nothing to expand, and the text without its
comments have the same items and the same errors. -/
theorem parse_withoutComments (env : Environment) (cache cache' : TokenCache)
    (path : Option String) {text : String}
    (h : ∀ t ∈ tokenize text, t.kind ≠ .directive ∧ IsPlain t) {steps : Nat}
    (hsteps : (tokenize text).length < steps)
    (hsteps' : (tokenize (withoutComments text)).length < steps) :
    ∃ r r', parse? steps env cache text path = some r
      ∧ parse? steps env cache' (withoutComments text) path = some r'
      ∧ r.file.items.map Item.bare = r'.file.items.map Item.bare
      ∧ r.file.errors.map reported = r'.file.errors.map reported
      ∧ r.file.finalDepth = r'.file.finalDepth := by
  have hkinds : ∀ p ∈ lex text.toList,
      (p.kind ≠ .directive ∧ p.IsPlain) ∧ p.kind ≠ .eof := by
    intro p hp
    refine ⟨?_, lexFrom_kind_ne_eof hp⟩
    have hpieces : (tokensFrom .origin 0 (lex text.toList)).map (·.piece)
        = lex text.toList := map_piece_tokensFrom
    rw [← hpieces] at hp
    obtain ⟨t, ht, rfl⟩ := List.mem_map.1 hp
    exact h t (tokenize_eq text ▸ List.mem_append_left _ ht)
  have hgaps : UpToGaps (lex text.toList) (lex (withoutComments text).toList) :=
    upToGaps_withoutComments fun p hp => (hkinds p hp).1.2
  have hplain : ∀ t ∈ tokenize text, IsPlain t := fun t ht => (h t ht).2
  have hplain' : ∀ t ∈ tokenize (withoutComments text), IsPlain t := by
    intro t ht
    rw [tokenize_eq] at ht
    rcases List.mem_append.1 ht with ht | ht
    · exact hgaps.plain (fun p hp => (hkinds p hp).1.2) _ (mem_tokensFrom ht).1
    · rw [List.mem_singleton.1 ht]
      exact ⟨nofun, nofun⟩
  obtain ⟨hfacing, -⟩ := facing_start env cache path hplain
  obtain ⟨hfacing', -⟩ := facing_start env cache' path hplain'
  have hahead := hfacing.ahead
  have hahead' := hfacing'.ahead
  rw [tokenize_eq] at hfacing hfacing'
  have heof : ∀ text, (endOf text).piece = (Token.eof .origin 0).piece :=
    fun _ => rfl
  obtain ⟨u, u', before, hgo, hu⟩ := Even.upToGaps env hgaps hkinds rfl
    ⟨heof text, heof (withoutComments text)⟩ hfacing hfacing'
    (even_start env cache cache' path hplain hplain' _)
  have halike : Alike (u.moved (endOf text) [])
      (u'.moved (endOf (withoutComments text)) []) := hu.alike.aside rfl rfl
  obtain ⟨hfinish, herrors, hdepth⟩ := halike.finish_reported env
    hgo.facing.1.moved hgo.facing.2.moved hu.tracks hu.blocks
    (congrArg Position.line (hgaps.past_eq .origin)) rfl hu.depths
  refine ⟨.ofState env.options _, .ofState env.options _, ?_, ?_, hfinish.items,
    herrors, hdepth⟩
  · exact congrArg (Option.map _)
      (hgo.leads.1.ends hgo.facing.1 rfl (hahead ▸ hsteps))
  · exact congrArg (Option.map _)
      (hgo.leads.2.ends hgo.facing.2 rfl (hahead' ▸ hsteps'))

/-- A comment in the target of a `RUN`, and one after an `END` that ends
nothing. -/
theorem parse_withoutComments_run :
    withoutComments "RUN a /* b */ (1).\nEND. // c\n"
        = "RUN a         (1).\nEND.     \n"
      ∧ ∃ r r', parse? 100 {} {} "RUN a /* b */ (1).\nEND. // c\n" none = some r
        ∧ parse? 100 {} {} "RUN a         (1).\nEND.     \n" none = some r'
        ∧ r.file.items.map Item.bare = r'.file.items.map Item.bare
        ∧ r.file.errors.map reported = r'.file.errors.map reported
        ∧ r.file.finalDepth = r'.file.finalDepth := by
  have htext : withoutComments "RUN a /* b */ (1).\nEND. // c\n"
      = "RUN a         (1).\nEND.     \n" := by decide +kernel
  refine ⟨htext, ?_⟩
  rw [← htext]
  exact parse_withoutComments {} {} {} none (by decide +kernel)
    (by decide +kernel) (by decide +kernel)

/-- The text with each of its comments blanked. -/
def commentsBlanked (text : String) : String :=
  String.join ((tokenize text).map fun t =>
    if t.kind = .comment then String.ofList (t.text.toList.map blankFor)
    else t.text)

/-- A comment right behind a dot does tell: the `RUN` goes on into the next
line, and with white space there each line is a `RUN`. -/
theorem comment_behind_dot :
    (∀ t ∈ tokenize "RUN a./* c */\nRUN b.\n", t.kind ≠ .directive ∧ IsPlain t)
      ∧ commentsBlanked "RUN a./* c */\nRUN b.\n" = "RUN a.       \nRUN b.\n"
      ∧ (parse? 100 {} {} "RUN a./* c */\nRUN b.\n" none).map
          (·.file.items.map (·.name)) = some #["<input>", "a."]
      ∧ (parse? 100 {} {} "RUN a.       \nRUN b.\n" none).map
          (·.file.items.map (·.name)) = some #["<input>", "a", "b"] := by
  decide +kernel

end AblOutline
