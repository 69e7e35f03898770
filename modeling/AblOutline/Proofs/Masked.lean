/-
Text on a branch that is not taken has no influence on the rest. A text with
branches and the text in which the branches that are not taken, and the
directives, are blanked out have the same items and the same faults, as far as
no statement is stopped on such a branch, and no call is cut by a directive
(`Apart`). A stop on a branch that is not taken drops the statement that is
being read, even where that began before the branch.
-/
import AblOutline.Proofs.Alike.Statements
import AblOutline.Proofs.Masked.Beside
import AblOutline.Proofs.Program

namespace AblOutline

section Fits

variable {cs : Chains} {m : List Stretch}

theorem Fits.significant_masked (h : Fits cs m) :
    significant (m.map Stretch.masked).flatten = kept m := by
  induction m generalizing cs with
  | nil => rfl
  | cons x m ih =>
      rw [List.map_cons, List.flatten_cons, significant_append]
      cases x with
      | live ps =>
          obtain ⟨-, -, hm⟩ := h
          exact congrArg (significant ps ++ ·) (ih hm)
      | dead ps blank =>
          obtain ⟨-, -, hb, hm⟩ := h
          rw [ih hm]
          exact congrArg (· ++ kept m) hb.isGap.significant_eq_nil
      | branch d e blank =>
          obtain ⟨-, hb, cs', -, hm⟩ := h
          rw [ih hm]
          exact congrArg (· ++ kept m) hb.isGap.significant_eq_nil

/-- Both texts have as many lines. -/
theorem Fits.past_line_eq {start start' : Position} (h : Fits cs m)
    (hstart : start.line = start'.line) :
    (start.past (m.map Stretch.pieces).flatten).line
      = (start'.past (m.map Stretch.masked).flatten).line := by
  induction m generalizing cs start start' with
  | nil => exact hstart
  | cons x m ih =>
      have hnext : ∃ cs', Fits cs' m ∧ (Position.origin.past x.masked).line
          = (Position.origin.past x.pieces).line := by
        cases x with
        | live ps => exact ⟨cs, h.2.2, rfl⟩
        | dead ps blank => exact ⟨cs, h.2.2.2, h.2.2.1.lines⟩
        | branch d e blank =>
            obtain ⟨-, hb, cs', -, hm⟩ := h
            exact ⟨cs', hm, hb.lines⟩
      obtain ⟨cs', hm, hlines⟩ := hnext
      rw [List.map_cons, List.map_cons, List.flatten_cons, List.flatten_cons,
        past_append, past_append]
      refine ih hm ?_
      have hp := past_line start x.pieces .origin
      have hq := past_line start' x.masked .origin
      omega

end Fits

section Lines

variable {ps blank : List Piece}

theorem IsLines.kinds (h : IsLines ps) :
    ∀ p ∈ ps, (p.kind ≠ .directive ∧ p.IsPlain) ∧ p.kind ≠ .eof := by
  intro p hp
  refine ⟨h.plain p hp, ?_⟩
  rw [← h.lexes] at hp
  exact lexFrom_kind_ne_eof hp

/-- The next lines begin at the same place in both texts. -/
theorem IsBlank.past_eq (h : IsBlank ps blank) (hl : lex (charsOf ps) = ps)
    (he : EndsLine ps) (he' : EndsLine blank) (start : Position) :
    start.past ps = start.past blank := by
  have hp := past_line start ps .origin
  have hq := past_line start blank .origin
  have hlines := h.lines
  have hline : (start.past ps).line = (start.past blank).line := by omega
  have hcolumn : (start.past ps).column = (start.past blank).column :=
    (past_column hl he).trans (past_column h.lexes he').symm
  generalize start.past ps = p at hline hcolumn
  generalize start.past blank = q at hline hcolumn
  cases p
  cases q
  cases hline
  cases hcolumn
  rfl

theorem dropLast_cons {P : List Piece → Prop} {c : List Piece}
    {chunks : List (List Piece)} (h : ∀ x ∈ (c :: chunks).dropLast, P x) :
    (chunks ≠ [] → P c) ∧ ∀ x ∈ chunks.dropLast, P x := by
  by_cases hnil : chunks = []
  · rw [hnil]
    exact ⟨fun hne => absurd rfl hne, nofun⟩
  · rw [List.dropLast_cons_of_ne_nil hnil] at h
    exact ⟨fun _ => h c List.mem_cons_self,
      fun x hx => h x (List.mem_cons_of_mem _ hx)⟩

end Lines

namespace Parse

variable {env : Environment} {s s' : State} {cs : Chains}
  {before : List Piece} {m : List Stretch} {e : Piece} {eof eof' : Token}

theorem meanings_eof (he : e.kind = .eof) (h : eof.piece = e) :
    meanings [eof] = [e] := by
  have hkind : eof.kind = .eof := by
    rw [← he, ← h]
    rfl
  rw [meanings_cons (by rw [hkind]; rfl), h]
  rfl

/-- The stretches of a text, and what is kept of them. -/
theorem Beside.stretches {start start' : Position} {offset offset' : Nat}
    (hf : Fits cs m) (ha : Apart before m)
    (hends : ∀ c ∈ (m.map Stretch.pieces).dropLast, EndsLine c)
    (hends' : ∀ c ∈ (m.map Stretch.masked).dropLast, EndsLine c)
    (hs : Facing s
      (tokensFrom start offset (m.map Stretch.pieces).flatten ++ [eof]))
    (hs' : Facing s'
      (tokensFrom start' offset' (m.map Stretch.masked).flatten ++ [eof']))
    (he : e.kind = .eof) (heof : eof.piece = e ∧ eof'.piece = e)
    (hstart : m ≠ [] → start = start') (h : Beside cs before s s')
    (hlevel : cs.allActive = true → m ≠ [] →
      s.analysis.spaced = s'.analysis.spaced
        ∧ Behind s.source.cursor.passed before (kept m ++ [e])) :
    ∃ u u' before', GoOn env [eof] [eof'] s s' u u'
      ∧ Beside [] before' u u' := by
  induction m generalizing s s' cs before start start' offset offset' with
  | nil =>
      cases hf
      exact ⟨s, s', before, ⟨⟨.refl s, .refl s'⟩, ⟨hs, hs'⟩⟩, h⟩
  | cons x m ih =>
      rw [List.map_cons, List.flatten_cons, tokensFrom_append,
        List.append_assoc] at hs hs'
      obtain ⟨hend, hmore⟩ := dropLast_cons hends
      obtain ⟨hend', hmore'⟩ := dropLast_cons hends'
      rw [ne_eq, List.map_eq_nil_iff] at hend hend'
      cases x with
      | live ps =>
          obtain ⟨hactive, hps, hm⟩ := hf
          obtain ⟨hspaced, hbehind⟩ := hlevel hactive (List.cons_ne_nil _ _)
          cases hstart (List.cons_ne_nil _ _)
          have hafter := (meanings_tokensFrom (start.past ps)
            (offset' + bytesOf ps) (m.map Stretch.masked).flatten [eof']).trans
              (congrArg₂ (· ++ ·) hm.significant_masked
                (meanings_eof he heof.2))
          have hparted : Parted ((significant ps).reverse ++ before)
              (meanings (tokensFrom (start.past ps) (offset + bytesOf ps)
                (m.map Stretch.pieces).flatten ++ [eof])) (kept m ++ [e]) := by
            rw [meanings_tokensFrom, meanings_eof he heof.1]
            exact .of_apart he hm hactive ha
          have hhere : Level cs before (significant ps ++ (kept m ++ [e]))
              s s' := by
            refine ⟨h, hactive, hspaced, ?_⟩
            rw [← List.append_assoc]
            exact hbehind
          obtain ⟨u, u', hon, hu⟩ :=
            hhere.lines env hps.kinds hs hs' hafter hparted
          obtain ⟨v, v', b, hrest, hv⟩ := ih hm ha hmore hmore' hon.facing.1
            hon.facing.2 (fun _ => rfl) hu.toBeside
            fun _ _ => ⟨hu.spaced, hu.behind⟩
          exact ⟨v, v', b, hon.trans hrest, hv⟩
      | dead ps blank =>
          obtain ⟨hdead, hps, hb, hm⟩ := hf
          cases hstart (List.cons_ne_nil _ _)
          have hfalse : s.inFalseBranch = true := by
            show s.nesting.inFalseBranch = true
            rw [h.tracks.inFalseBranch_eq, hdead]
            rfl
          obtain ⟨u, hu⟩ := Facing.ignore env hs h.skip.1
            (fun p hp => ⟨(hps.kinds p hp).1.1, (hps.kinds p hp).2⟩)
            (Or.inl hfalse) fun hstop => h.calm (ha.1 hstop)
          obtain ⟨u', hu'⟩ := Facing.gap env hs' h.skip.2 hb.isGap
          obtain ⟨v, v', b, hrest, hv⟩ := ih hm ha.2 hmore hmore' hu.facing
            hu'.facing
            (fun hne => hb.past_eq hps.lexes (hend hne) (hend' hne) start)
            (h.passes hu.toPasses (hu.nesting ▸ h.tracks) hu.skip hu' hb.isGap)
            fun hactive => absurd (hdead.symm.trans hactive) Bool.false_ne_true
          exact ⟨v, v', b, .trans ⟨⟨hu.leads, hu'.leads⟩,
            ⟨hu.facing, hu'.facing⟩⟩ hrest, hv⟩
      | branch d event blank =>
          obtain ⟨hmarks, hb, cs', hread, hm⟩ := hf
          cases hstart (List.cons_ne_nil _ _)
          obtain ⟨_, hword⟩ := hmarks.wellFormed
          obtain ⟨u, hu, htracks, hskip, hspaced⟩ :=
            Facing.branch env hs h.skip.1 h.tracks hmarks hread
          obtain ⟨u', hu'⟩ := Facing.gap env hs' h.skip.2 hb.isGap
          have hbeside : Beside cs' before u u' :=
            h.passes hu htracks hskip hu' hb.isGap
          have hlevel : cs'.allActive = true → m ≠ [] →
              u.analysis.spaced = u'.analysis.spaced
                ∧ Behind u.source.cursor.passed before (kept m ++ [e]) := by
            intro hactive hne
            have hgap := (hu'.spaced (by
              show s'.nesting.inFalseBranch = false
              rw [h.blocks.inFalseBranch_eq]
              rfl)).resolve_right fun hnil => by
                obtain ⟨front, chars, hlast⟩ := hend' hne
                rw [show Stretch.masked (.branch d event blank) = [] from hnil.1]
                  at hlast
                simp at hlast
            refine ⟨(hspaced (hend hne) hactive).trans hgap.symm, Or.inr ?_⟩
            obtain ⟨front, word, hlast⟩ := marks_significant hmarks
            refine ⟨⟨⟨.directive, word⟩, ?_, rfl⟩, ?_⟩
            · rw [hu.meanings_eq, hlast, List.reverse_append]
              rfl
            · rw [Parted.cutsCall_concat he]
              exact ha.1
          obtain ⟨v, v', b, hrest, hv⟩ := ih hm ha.2 hmore hmore' hu.facing
            hu'.facing
            (fun hne => hb.past_eq hword.lexes (hend hne) (hend' hne) start)
            hbeside hlevel
          exact ⟨v, v', b, .trans ⟨⟨hu.leads, hu'.leads⟩,
            ⟨hu.facing, hu'.facing⟩⟩ hrest, hv⟩

-- ================================================================= start

/-- Two parses of the same file start side by side. -/
theorem beside_start (env : Environment) (cache cache' : TokenCache)
    (path : Option String) {text text' : String}
    (h : ∀ t ∈ tokenize text, IsPlain t) (h' : ∀ t ∈ tokenize text', IsPlain t) :
    Beside [] [] (.start env cache text path) (.start env cache' text' path)
      ∧ (∀ after,
        Behind (State.start env cache text path).source.cursor.passed [] after)
      ∧ (State.start env cache text path).analysis.spaced
        = (State.start env cache' text' path).analysis.spaced := by
  obtain ⟨-, n, hn⟩ := facing_start env cache path h
  obtain ⟨-, n', hn'⟩ := facing_start env cache' path h'
  have htracks : Tracks [⟨.file 0, 0⟩] [] := .other rfl .nil
  rw [hn, hn']
  exact ⟨⟨⟨rfl, rfl, rfl, rfl, rfl⟩, htracks, htracks, ⟨rfl, rfl⟩,
    ⟨Cursor.isEof_beyond_ofTokens _, Cursor.isEof_beyond_ofTokens _⟩, rfl,
    fun _ => ⟨rfl, rfl⟩⟩, fun _ => Or.inl rfl, rfl⟩

end Parse

-- ================================================================== runs

open Parse

section Texts

variable {cs : Chains} {m : List Stretch} {chunks : List (List Piece)}

/-- The end mark of a text of chunks. -/
def endMark (chunks : List (List Piece)) : Token :=
  .eof (Position.origin.past chunks.flatten) (bytesOf chunks.flatten)

/-- The tokens of a text of chunks are those of their pieces. -/
theorem tokenize_textOf (hl : ∀ c ∈ chunks, lex (charsOf c) = c)
    (ho : Program.OnOwnLines chunks) :
    tokenize (textOf chunks)
      = tokensFrom .origin 0 chunks.flatten ++ [endMark chunks] := by
  rw [tokenize_eq]
  unfold textOf
  rw [String.toList_ofList, lex_of_onOwnLines hl ho]
  rfl

theorem plain_textOf (hl : ∀ c ∈ chunks, lex (charsOf c) = c)
    (ho : Program.OnOwnLines chunks) (hp : ∀ c ∈ chunks, ∀ p ∈ c, p.IsPlain) :
    ∀ t ∈ tokenize (textOf chunks), IsPlain t := by
  intro t ht
  rw [tokenize_textOf hl ho] at ht
  rcases List.mem_append.1 ht with ht | ht
  · obtain ⟨c, hc, hpiece⟩ := List.mem_flatten.1 (mem_tokensFrom ht).1
    exact hp c hc _ hpiece
  · rw [List.mem_singleton.1 ht]
    exact ⟨nofun, nofun⟩

end Texts

/-- A run that leads to the end mark stops there. -/
theorem Parse.Leads.ends {env : Environment} {s u : State} {eof : Token}
    {steps : Nat} (hl : Leads env s u) (hu : Facing u [eof])
    (he : eof.isEof = true) (hsteps : s.source.cursor.ahead.length < steps) :
    s.run env steps = some (u.moved eof []) := by
  have hm := hl (steps - 1 - s.source.cursor.ahead.length)
  rw [run_of_eof hu.ahead he] at hm
  rw [← hm]
  congr 1
  omega

/-- Text on a branch that is not taken has no influence on the items, the
faults and the scopes that are found in the rest, where it stops no statement
of the rest and no directive cuts a call. -/
theorem parse_masked (env : Environment) (cache cache' : TokenCache)
    (path : Option String) {m : List Stretch} (hf : Fits [] m)
    (ha : Apart [] m) (ho : Program.OnOwnLines (m.map Stretch.pieces))
    (ho' : Program.OnOwnLines (m.map Stretch.masked)) {steps : Nat}
    (hsteps : (tokenize (textOf (m.map Stretch.pieces))).length < steps)
    (hsteps' : (tokenize (textOf (m.map Stretch.masked))).length < steps) :
    ∃ r r', parse? steps env cache (textOf (m.map Stretch.pieces)) path = some r
      ∧ parse? steps env cache' (textOf (m.map Stretch.masked)) path = some r'
      ∧ r.file.items.map Item.bare = r'.file.items.map Item.bare
      ∧ r.file.errors.map (·.place) = r'.file.errors.map (·.place)
      ∧ r.file.finalDepth = r'.file.finalDepth := by
  have hplain := plain_textOf hf.lexes.1 ho hf.plain.1
  have hplain' := plain_textOf hf.lexes.2 ho' hf.plain.2
  obtain ⟨hfacing, -⟩ := facing_start env cache path hplain
  obtain ⟨hfacing', -⟩ := facing_start env cache' path hplain'
  obtain ⟨hbeside, hbehind, hspaced⟩ :=
    beside_start env cache cache' path hplain hplain'
  have hahead := hfacing.ahead
  have hahead' := hfacing'.ahead
  rw [tokenize_textOf hf.lexes.1 ho] at hfacing
  rw [tokenize_textOf hf.lexes.2 ho'] at hfacing'
  obtain ⟨u, u', before, hgo, hu⟩ := hbeside.stretches hf ha ho.ends ho'.ends
    hfacing hfacing' (e := (Token.eof .origin 0).piece) rfl ⟨rfl, rfl⟩
    (fun _ => rfl) fun _ _ => ⟨hspaced, hbehind _⟩
  have halike : Alike (u.moved (endMark (m.map Stretch.pieces)) [])
      (u'.moved (endMark (m.map Stretch.masked)) []) := hu.alike.aside rfl rfl
  obtain ⟨hfinish, hdepth⟩ := halike.finish env hgo.facing.1.moved
    hgo.facing.2.moved hu.tracks hu.blocks (hf.past_line_eq rfl) rfl
  refine ⟨.ofState env.options _, .ofState env.options _, ?_, ?_, hfinish.items,
    hfinish.errors, hdepth⟩
  · exact congrArg (Option.map _)
      (hgo.leads.1.ends hgo.facing.1 rfl (hahead ▸ hsteps))
  · exact congrArg (Option.map _)
      (hgo.leads.2.ends hgo.facing.2 rfl (hahead' ▸ hsteps'))

/-- Two lines, and between them a line on a branch that is not taken. -/
def partedBy (first line last : String) : List Stretch :=
  [.live (lex first.toList),
    .branch (.ofLine "&IF" " FALSE &THEN") (.ifThen false) [⟨.eol, ['\n']⟩],
    .dead (lex line.toList) [⟨.eol, ['\n']⟩],
    .branch (.ofLine "&ENDIF" "") .endIf [⟨.eol, ['\n']⟩],
    .live (lex last.toList)]

theorem partedBy_fits {first line last : String}
    (hfirst : IsLines (lex first.toList)) (hline : IsLines (lex line.toList))
    (hlast : IsLines (lex last.toList))
    (hb : IsBlank (lex line.toList) [⟨.eol, ['\n']⟩]) :
    Fits [] (partedBy first line last) := by
  have hif : (DirectiveLine.ofLine "&IF" " FALSE &THEN").HasLiteral "&IF"
      false :=
    ⟨by decide +kernel, [⟨.blank, [' ']⟩], ⟨.word, "FALSE".toList⟩,
      [⟨.blank, [' ']⟩], "&THEN".toList, by decide +kernel, by decide,
      ⟨rfl, by decide⟩, by decide, by decide⟩
  exact ⟨rfl, hfirst, hif, by decide +kernel, _, rfl, rfl, hline, hb,
    ⟨by decide +kernel, by decide +kernel⟩, by decide +kernel, _, rfl, rfl,
    hlast, rfl⟩

/-- A word on the branch changes nothing, though a statement goes on after
it. -/
theorem parse_masked_word :
    ∃ r r', parse? 100 {} {} "RUN p\n&IF FALSE &THEN\nx\n&ENDIF\n.\n" none
        = some r
      ∧ parse? 100 {} {} "RUN p\n\n\n\n.\n" none = some r'
      ∧ r.file.items.map Item.bare = r'.file.items.map Item.bare
      ∧ r.file.errors.map (·.place) = r'.file.errors.map (·.place)
      ∧ r.file.finalDepth = r'.file.finalDepth := by
  have htext : textOf ((partedBy "RUN p\n" "x\n" ".\n").map Stretch.pieces)
      = "RUN p\n&IF FALSE &THEN\nx\n&ENDIF\n.\n" := by decide +kernel
  have htext' : textOf ((partedBy "RUN p\n" "x\n" ".\n").map Stretch.masked)
      = "RUN p\n\n\n\n.\n" := by decide +kernel
  have hfits : Fits [] (partedBy "RUN p\n" "x\n" ".\n") :=
    partedBy_fits (by decide +kernel) (by decide +kernel) (by decide +kernel)
      (by decide +kernel)
  rw [← htext, ← htext']
  exact parse_masked {} {} {} none hfits (by decide +kernel)
    ⟨by decide +kernel, by decide +kernel⟩
    ⟨by decide +kernel, by decide +kernel⟩ (by decide +kernel)
    (by decide +kernel)

/-- The names of the items in a text with branches, and in the same text where
those that are not taken are blanked out. -/
def namesOf (m : List Stretch) : Option (Array String) × Option (Array String) :=
  let names (text : String) :=
    (parse? 100 {} {} text none).map (·.file.items.map (·.name))
  (names (textOf (m.map Stretch.pieces)), names (textOf (m.map Stretch.masked)))

/-- Text on a branch does tell where it is not apart: a dot drops the statement
that began before the branch, and a directive hides the parenthesis of a
call. -/
theorem branches_tell :
    (Fits [] (partedBy "RUN p\n" "x.\n" ".\n")
        ∧ Program.OnOwnLines
            ((partedBy "RUN p\n" "x.\n" ".\n").map Stretch.pieces)
        ∧ Program.OnOwnLines
            ((partedBy "RUN p\n" "x.\n" ".\n").map Stretch.masked)
        ∧ namesOf (partedBy "RUN p\n" "x.\n" ".\n")
          = (some #["<input>"], some #["<input>", "p"]))
      ∧ Fits [] (partedBy "f\n" "x\n" "(1).\n")
      ∧ Program.OnOwnLines
          ((partedBy "f\n" "x\n" "(1).\n").map Stretch.pieces)
      ∧ Program.OnOwnLines
          ((partedBy "f\n" "x\n" "(1).\n").map Stretch.masked)
      ∧ namesOf (partedBy "f\n" "x\n" "(1).\n")
        = (some #["<input>"], some #["<input>", "f"]) := by
  refine ⟨⟨partedBy_fits ?_ ?_ ?_ ?_, ⟨?_, ?_⟩, ⟨?_, ?_⟩, ?_⟩,
    partedBy_fits ?_ ?_ ?_ ?_, ⟨?_, ?_⟩, ⟨?_, ?_⟩, ?_⟩
  all_goals decide +kernel

end AblOutline
