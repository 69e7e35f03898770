/-
The record of lines: every line of the file being read gets a state, however
many files and values are put into the stream, and each state fits the items
that were found.

A line is recorded at each line break, for the line of the file being read
that the break counts for, and the last one at the end mark. `Within` is what
keeps the record as long as the text: no token ahead counts for a line below
that of the end mark, and there is one end mark. Each edit of the stream keeps
it, since what is put in counts for the line of the token that brings it. What
is recorded fits the items found so far (`LineFits`), and items only gain.
-/
import AblOutline.Proofs.Lexing.Lines
import AblOutline.Proofs.Stream

namespace AblOutline

-- ============================================================ vocabulary

/-- The sort of item that a frame of that kind belongs to. Blocks and `&IF`s
belong to none. -/
def frameSort? : ScopeKind → Option String
  | .file => some "file"
  | .procedure => some "procedure"
  | .function => some "implementation"
  | .method => some "method"
  | .trigger => some "on"
  | .suspended => some "preproc-block"
  | .conditional | .block => none

/-- The frame refers to an item that is there, of the sort that it belongs to,
and to none where it belongs to none. -/
def FrameFits (items : Array Item) (f : Frame) : Prop :=
  match frameSort? f.kind with
  | some sort => ∃ id, f.item = some id ∧ IsA items id sort
  | none => f.item = none

/-- What is recorded of a line fits the items. -/
structure LineFits (items : Array Item) (l : LineState) : Prop where
  /-- The file is open around all else, and no other file is. -/
  file : ∃ line inner, l.frames = ⟨.file, some 0, line, true⟩ :: inner
    ∧ ∀ f ∈ inner, f.kind ≠ .file
  branch : l.inFalseBranch = true ↔ ∃ f ∈ l.frames, f.active = false
  frames : ∀ f ∈ l.frames, FrameFits items f

theorem FrameFits.extend {items items' : Array Item}
    (he : Extends items items') {f : Frame} (h : FrameFits items f) :
    FrameFits items' f := by
  unfold FrameFits at h ⊢
  split at h
  · obtain ⟨id, hid, hsort⟩ := h
    exact ⟨id, hid, he hsort⟩
  · exact h

theorem LineFits.extend {items items' : Array Item}
    (he : Extends items items') {l : LineState} (h : LineFits items l) :
    LineFits items' l :=
  ⟨h.file, h.branch, fun f hf => (h.frames f hf).extend he⟩

/-- The state of a line is that of the next line with a record, where the last
line has one. -/
theorem mem_fill {ls : List (Option LineState)} {l m : LineState}
    (hlast : ls.getLast? = some (some m)) (hl : l ∈ LineState.fill ls) :
    some l ∈ ls := by
  induction ls with
  | nil => cases hl
  | cons x rest ih =>
      cases rest with
      | nil =>
          obtain rfl : x = some m := Option.some.inj hlast
          rw [LineState.fill, LineState.fill] at hl
          rw [List.mem_singleton.1 hl]
          exact List.mem_cons_self
      | cons y rest =>
          rw [List.getLast?_cons_cons] at hlast
          have hrest : l ∈ LineState.fill (y :: rest) →
              some l ∈ x :: y :: rest :=
            fun h => List.mem_cons_of_mem _ (ih hlast h)
          cases x with
          | some s =>
              rw [LineState.fill] at hl
              rcases List.mem_cons.1 hl with rfl | hl
              · exact List.mem_cons_self
              · exact hrest hl
          | none =>
              rw [LineState.fill] at hl
              rcases List.mem_cons.1 hl with rfl | hl
              · refine hrest ?_
                -- the line below has a state
                have hne : LineState.fill (y :: rest) ≠ [] := by
                  rw [← List.length_pos_iff, LineState.length_fill]
                  exact Nat.succ_pos _
                obtain ⟨z, zs, hz⟩ := List.exists_cons_of_ne_nil hne
                rw [hz]
                exact List.mem_cons_self
              · exact hrest hl

namespace Parse

variable {env : Environment} {steps last : Nat} {s s' : State} {t : Token}

-- ============================================================== a record

theorem Sound.frameFits (h : Sound s) {o : OpenScope}
    (ho : o ∈ s.nesting.scopes) : FrameFits s.findings.items o.frame := by
  have hscope := h.scopes o ho
  obtain ⟨scope, line⟩ := o
  cases scope with
  | file item =>
      obtain rfl : item = 0 := hscope
      exact ⟨0, rfl, h.forest.isA_file⟩
  | routine item kind keyword opener =>
      cases kind with
      | procedure => exact ⟨item, rfl, hscope⟩
      | function => exact ⟨item, rfl, hscope⟩
      | method => exact ⟨item, rfl, hscope⟩
      | trigger => exact ⟨item, rfl, hscope⟩
  | suspended item opener => exact ⟨item, rfl, hscope⟩
  | conditional opener active taken => rfl
  | block opener keyword label => rfl

/-- What a sound parse records of a line fits its items. -/
theorem Sound.lineFits (h : Sound s) :
    LineFits s.findings.items (.ofNesting s.nesting) := by
  have hmem : ∀ f : Frame, f ∈ s.nesting.frames ↔
      ∃ o ∈ s.nesting.scopes, o.frame = f := by
    intro f
    rw [Nesting.frames, List.mem_reverse, List.mem_map]
  refine ⟨?_, ?_, fun f hf => ?_⟩
  · obtain ⟨inner, line, hscopes, hinner⟩ := h.file
    refine ⟨line, (inner.map (·.frame)).reverse, ?_, fun f hf => ?_⟩
    · show s.nesting.frames = _
      rw [Nesting.frames, hscopes, List.map_append, List.reverse_append]
      rfl
    · obtain ⟨o, ho, rfl⟩ := List.mem_map.1 (List.mem_reverse.1 hf)
      exact hinner o ho
  · show s.nesting.inFalseBranch = true ↔ ∃ f ∈ s.nesting.frames, _
    rw [Nesting.inFalseBranch, List.any_eq_true]
    constructor
    · rintro ⟨o, ho, hoff⟩
      rw [Bool.not_eq_true'] at hoff
      exact ⟨o.frame, (hmem _).2 ⟨o, ho, rfl⟩, hoff⟩
    · rintro ⟨f, hf, hoff⟩
      obtain ⟨o, ho, rfl⟩ := (hmem f).1 hf
      refine ⟨o, ho, ?_⟩
      rw [Bool.not_eq_true']
      exact hoff
  · obtain ⟨o, ho, rfl⟩ := (hmem f).1 hf
    exact h.frameFits ho

section PutAt

variable {α : Type} {xs : Array (Option α)} {i : Nat} {x : α}

theorem size_putAt : (State.putAt xs i x).size = max xs.size (i + 1) := by
  unfold State.putAt
  rw [Array.size_setIfInBounds, Array.size_append, Array.size_replicate]
  omega

theorem getElem?_putAt_self : (State.putAt xs i x)[i]? = some (some x) := by
  have hlt : i < (State.putAt xs i x).size := by
    rw [size_putAt]
    omega
  unfold State.putAt at hlt ⊢
  rw [Array.size_setIfInBounds] at hlt
  exact Array.getElem?_setIfInBounds_self_of_lt hlt

theorem mem_putAt {y : α} (h : some y ∈ State.putAt xs i x) :
    y = x ∨ some y ∈ xs := by
  unfold State.putAt at h
  rcases Array.mem_or_eq_of_mem_setIfInBounds h with h | h
  · rcases Array.mem_append.1 h with h | h
    · exact Or.inr h
    · rw [Array.mem_replicate] at h
      cases h.2
  · exact Or.inl (Option.some.inj h)

end PutAt

/-- The state is sound, no line below `last` is recorded, and what is recorded
fits the items. -/
structure Recorded (last : Nat) (s : State) : Prop where
  sound : Sound s
  size : s.findings.lines.size ≤ last + 1
  fits : ∀ l, some l ∈ s.findings.lines → LineFits s.findings.items l

/-- A line is recorded. -/
theorem Recorded.recordLine (h : Recorded last s) {line : Nat}
    (hline : line ≤ last) : Recorded last (s.recordLine line) := by
  refine ⟨(Keeps.one fun _ => .lineEnded s line).sound h.sound, ?_, ?_⟩
  · show (State.putAt s.findings.lines line _).size ≤ _
    rw [size_putAt]
    have hsize := h.size
    omega
  · intro l hl
    rcases mem_putAt hl with rfl | hl
    · exact h.sound.lineFits
    · exact h.fits l hl

/-- Items are found, and no line is recorded. -/
theorem Recorded.extend (h : Recorded last s) (hsound : Sound s')
    (he : Extends s.findings.items s'.findings.items)
    (hlines : s'.findings.lines = s.findings.lines) : Recorded last s' := by
  refine ⟨hsound, ?_, ?_⟩
  · rw [hlines]
    exact h.size
  · rw [hlines]
    exact fun l hl => (h.fits l hl).extend he

-- ================================================================== items

/-- A directive of branches loses no items. -/
theorem branch_extends {out : Outcome} (hs : Sound s)
    (h : s.directive env steps t = some out)
    (hb : isBranch (.ofWord t.text) = true) :
    Extends s.findings.items out.state.findings.items := by
  obtain ⟨u, hread, hdone⟩ := branch_cases h hb
  have hitems : Extends s.findings.items u.findings.items := by
    rcases hread with rfl | ⟨live, o, hu⟩
    · exact Extends.refl _
    · exact (takeCondition_keeps env hu).extends hs
  rcases hdone with ⟨n, hn⟩ | ⟨fault, hf⟩
  · rw [hn]
    exact hitems
  · rw [hf]
    exact hitems

/-- A step loses no items. -/
theorem step_extends (hs : Sound s) (h : s.step env steps t = some s') :
    Extends s.findings.items s'.findings.items := by
  by_cases hb : 0 < s.source.skip ∨ isBranchToken t = false
  · exact (step_keeps h hb).extends hs
  rcases step_cases h with ⟨hk, -⟩ | ⟨-, out, hl, rfl⟩
  · exact absurd (Or.inl hk) hb
  have hbranch : isBranchToken t = true := by
    cases hc : isBranchToken t with
    | true => rfl
    | false => exact absurd (Or.inr hc) hb
  unfold isBranchToken at hbranch
  obtain ⟨hkind, hword⟩ := Bool.and_eq_true_iff.1 hbranch
  have hobserve := observe_keeps s t false
  have hu := hobserve.sound hs
  refine (hobserve.extends hs).trans ?_
  unfold State.look at hl
  split at hl
  · cases hl
    exact (expandNext_keeps env _).extends hu
  · rw [eq_of_beq hkind] at hl
    exact (branch_extends hu hl hword).trans
      ((expandNext_keeps env _).extends (hu.directive_branch hl hword))

/-- A step records at most the line that its token counts for. -/
theorem Recorded.step (h : Recorded last s) (hline : s.rootLine t ≤ last)
    (hstep : s.step env steps t = some s') : Recorded last s' := by
  have hextends := step_extends h.sound hstep
  have hsound := h.sound.step hstep
  obtain ⟨skipped, hedited⟩ := step_edited hstep
  rcases observe_lines s t skipped with hlines | ⟨-, hrecord⟩
  · exact h.extend hsound hextends (hedited.lines.trans hlines)
  · refine (h.recordLine hline).extend hsound hextends ?_
    rw [hedited.lines, hrecord]

-- ============================================================= the stream

/-- The tokens ahead belong to files of the chain and count for no line below
`last`; one of them marks the end, and counts for that line. -/
structure Within (last : Nat) (s : Source) : Prop where
  beyond : s.cursor.beyond.isEof = true
  known : ∀ t ∈ s.cursor.ahead, t.owner < s.chain.size
  lines : ∀ t ∈ s.cursor.ahead, s.chain.rootLine t ≤ last
  mark : ∃ mark : Token, s.cursor.ahead.filter (·.isEof) = [mark]
    ∧ s.chain.rootLine mark = last

/-- A value counts for the line of the reference. -/
theorem StandsFor.rootLine {t v : Token} (h : StandsFor t v)
    (chain : IncludeChain) : chain.rootLine v = chain.rootLine t := by
  unfold IncludeChain.rootLine
  rw [h.owner, h.start]

section Push

variable {chain : IncludeChain} {f : ChainFile}

theorem get?_push_of_lt {owner : Nat} (h : owner < chain.size) :
    (chain.push f).get? owner = chain.get? owner := by
  show (chain.files.push f)[owner]? = chain.files[owner]?
  rw [Array.getElem?_push, if_neg (show owner ≠ chain.files.size from
    Nat.ne_of_lt h)]

/-- The tokens of the files that were there count for the same lines. -/
theorem rootLine_push (h : t.owner < chain.size) :
    (chain.push f).rootLine t = chain.rootLine t := by
  unfold IncludeChain.rootLine
  rw [get?_push_of_lt h]

/-- The tokens of a new file count for its line. -/
theorem rootLine_push_size (h : t.owner = chain.size) (hpos : 0 < chain.size) :
    (chain.push f).rootLine t = f.rootLine := by
  have hget : (chain.push f).get? t.owner = some f := by
    rw [h]
    exact Array.getElem?_push_size
  unfold IncludeChain.rootLine
  rw [if_neg (by omega), hget]
  rfl

end Push

variable {source source' : Source}

/-- A token ahead that is no end mark is a token of the stream. -/
theorem peekAhead_mem {c : Cursor} {a : Ahead} (hb : c.beyond.isEof = true)
    (h : (c.peekAhead a).isEof = false) : c.peekAhead a ∈ c.ahead := by
  unfold Cursor.peekAhead at h ⊢
  cases hget : c.ahead[a.skipped]? with
  | none =>
      rw [hget, Option.getD_none, hb] at h
      cases h
  | some v => exact List.mem_of_getElem? hget

/-- Tokens put in between are no end marks. -/
theorem filter_isEof_between {front ts rest : List Token}
    (h : ∀ v ∈ ts, v.isEof = false) :
    (front ++ ts ++ rest).filter (·.isEof)
      = (front ++ rest).filter (·.isEof) := by
  have hnone : ts.filter (·.isEof) = [] := by
    refine List.filter_eq_nil_iff.2 fun v hv heof => ?_
    rw [h v hv] at heof
    cases heof
  rw [List.filter_append, List.filter_append, List.filter_append, hnone,
    List.append_nil]

theorem Within.value {front rest ts : List Token} (h : Within last source)
    (ht : source.cursor.ahead = front ++ t :: rest) (hk : t.kind = .reference)
    (hts : ∀ v ∈ ts, StandsFor t v) :
    Within last { source with cursor :=
      { source.cursor with ahead := front ++ ts ++ rest } } := by
  obtain ⟨hbeyond, hknown, hlines, mark, hmark, hlast⟩ := h
  have hmem : ∀ v ∈ front ++ ts ++ rest,
      v ∈ source.cursor.ahead ∨ v ∈ ts := by
    intro v hv
    rw [ht]
    rcases List.mem_append.1 hv with hv | hv
    · rcases List.mem_append.1 hv with hv | hv
      · exact Or.inl (List.mem_append_left _ hv)
      · exact Or.inr hv
    · exact Or.inl (List.mem_append_right _ (List.mem_cons_of_mem _ hv))
  have htmem : t ∈ source.cursor.ahead := by
    rw [ht]
    exact List.mem_append_right _ List.mem_cons_self
  refine ⟨hbeyond, fun v hv => ?_, fun v hv => ?_, mark, ?_, hlast⟩
  · rcases hmem v hv with hv | hv
    · exact hknown v hv
    · exact (hts v hv).owner ▸ hknown t htmem
  · rcases hmem v hv with hv | hv
    · exact hlines v hv
    · exact Nat.le_trans (Nat.le_of_eq ((hts v hv).rootLine _))
        (hlines t htmem)
  · have hstands : ∀ v ∈ ts, v.isEof = false :=
      fun v hv => isEof_of_kind rfl (hts v hv).kind.2
    have hrest : (t :: rest).filter (·.isEof) = rest.filter (·.isEof) := by
      rw [List.filter_cons, isEof_of_kind hk nofun]
      rfl
    show (front ++ ts ++ rest).filter (·.isEof) = [mark]
    rw [filter_isEof_between hstands, List.filter_append, ← hrest,
      ← List.filter_append, ← ht, hmark]

theorem Within.file {a : Ahead} {ts : List Token} {f : ChainFile} {n : Nat}
    (h : Within last source)
    (hk : (source.cursor.peekAhead a).kind = .inclusion)
    (hline : f.rootLine = source.chain.rootLine (source.cursor.peekAhead a))
    (hts : ∀ v ∈ ts, v.owner = source.chain.size ∧ v.isEof = false) :
    Within last { source with
      chain := source.chain.push f
      cursor := source.cursor.insert a.next ts
      expanded := n } := by
  obtain ⟨hbeyond, hknown, hlines, mark, hmark, hlast⟩ := h
  have hmarkmem : mark ∈ source.cursor.ahead := by
    refine List.mem_of_mem_filter (p := (·.isEof)) ?_
    rw [hmark]
    exact List.mem_singleton_self _
  have hpos : 0 < source.chain.size := Nat.zero_lt_of_lt (hknown mark hmarkmem)
  have hmem : ∀ v ∈ (source.cursor.insert a.next ts).ahead,
      v ∈ source.cursor.ahead ∨ v ∈ ts := by
    intro v hv
    rcases List.mem_append.1 hv with hv | hv
    · rcases List.mem_append.1 hv with hv | hv
      · exact Or.inl (List.mem_of_mem_take hv)
      · exact Or.inr hv
    · exact Or.inl (List.mem_of_mem_drop hv)
  have hsize : (source.chain.push f).size = source.chain.size + 1 :=
    Array.size_push _
  refine ⟨hbeyond, fun v hv => ?_, fun v hv => ?_, mark, ?_, ?_⟩
  · show v.owner < (source.chain.push f).size
    rw [hsize]
    rcases hmem v hv with hv | hv
    · exact Nat.lt_succ_of_lt (hknown v hv)
    · exact Nat.lt_succ_of_le (Nat.le_of_eq (hts v hv).1)
  · rcases hmem v hv with hv | hv
    · exact Nat.le_trans (Nat.le_of_eq (rootLine_push (hknown v hv)))
        (hlines v hv)
    · -- the file counts for the line of its directive
      have htrigger := peekAhead_mem hbeyond (isEof_of_kind hk nofun)
      show (source.chain.push f).rootLine v ≤ last
      rw [rootLine_push_size (hts v hv).1 hpos, hline]
      exact hlines _ htrigger
  · show (source.cursor.ahead.take _ ++ ts ++ source.cursor.ahead.drop _).filter
      (·.isEof) = [mark]
    rw [filter_isEof_between fun v hv => (hts v hv).2, List.take_append_drop,
      hmark]
  · exact (rootLine_push (hknown mark hmarkmem)).trans hlast

theorem Within.edit (h : Within last source) (he : Edit source source') :
    Within last source' := by
  cases he with
  | aside hcursor hchain hexpanded hcache =>
      refine ⟨?_, ?_, ?_, ?_⟩
      · rw [hcursor]
        exact h.beyond
      · rw [hcursor, hchain]
        exact h.known
      · rw [hcursor, hchain]
        exact h.lines
      · rw [hcursor, hchain]
        exact h.mark
  | value ht hfresh hk hts => exact h.value ht hk hts
  | file a hfresh hk hf htokens => exact h.file hk hf.rootLine mem_ownedBy

theorem Within.edits (h : Within last source) (he : Edits source source') :
    Within last source' := by
  induction he with
  | refl => exact h
  | tail _ he ih => exact ih.edit he

/-- The cursor moves on to the end mark, or to a token that counts for no line
below it. -/
theorem Within.advance (h : Within last s.source) :
    ∃ u, s.advance? = some u
      ∧ (if u.source.cursor.current.isEof then
          u.rootLine u.source.cursor.current = last
        else Within last u.source
          ∧ u.rootLine u.source.cursor.current ≤ last) := by
  obtain ⟨hbeyond, hknown, hlines, mark, hmark, hlast⟩ := h
  cases hahead : s.source.cursor.ahead with
  | nil =>
      rw [hahead] at hmark
      cases hmark
  | cons t rest =>
      have hadvance : s.source.cursor.advance? = some
          { s.source.cursor with
            passed := t :: s.source.cursor.passed, ahead := rest } := by
        unfold Cursor.advance?
        rw [hahead]
      refine ⟨_, congrArg (Option.map _) hadvance, ?_⟩
      rw [hahead, List.filter_cons] at hmark
      show if t.isEof = true then s.source.chain.rootLine t = last
        else Within last _ ∧ s.source.chain.rootLine t ≤ last
      rw [hahead] at hknown hlines
      split
      case isTrue heof =>
        rw [if_pos heof] at hmark
        rw [(List.cons.inj hmark).1]
        exact hlast
      case isFalse heof =>
        rw [if_neg heof] at hmark
        refine ⟨⟨hbeyond, fun v hv => ?_, fun v hv => ?_, mark, hmark, hlast⟩,
          hlines t List.mem_cons_self⟩
        · exact hknown v (List.mem_cons_of_mem _ hv)
        · exact hlines v (List.mem_cons_of_mem _ hv)

-- ================================================================== runs

/-- A run records lines of the file, and stops at its end mark. -/
theorem Recorded.run (h : Recorded last s) (hw : Within last s.source)
    (hrun : s.run env steps = some s') :
    Recorded last s' ∧ s'.rootLine s'.source.cursor.current = last := by
  induction steps generalizing s with
  | zero => cases hrun
  | succ steps ih =>
      obtain ⟨u, hu, hcurrent⟩ := hw.advance
      have hkeeps := advance_keeps hu
      have hrec : Recorded last u := by
        refine h.extend (hkeeps.sound h.sound) (hkeeps.extends h.sound) ?_
        obtain ⟨cursor, -, rfl⟩ := Option.map_eq_some_iff.1 hu
        rfl
      unfold State.run at hrun
      rw [hu] at hrun
      dsimp only at hrun
      split at hrun
      · rename_i heof
        rw [if_pos heof] at hcurrent
        cases hrun
        exact ⟨hrec, hcurrent⟩
      · rename_i heof
        rw [if_neg heof] at hcurrent
        split at hrun
        · cases hrun
        · rename_i v hv
          exact ih (hrec.step hcurrent.2 hv)
            (hcurrent.1.edits (step_edits hv)) hrun

/-- At the start nothing is recorded. -/
theorem Recorded.start (env : Environment) (cache : TokenCache)
    (text : String) (path : Option String) :
    Recorded last (.start env cache text path) := by
  have hlines : (State.start env cache text path).findings.lines = #[] :=
    ((expandAt_readsOn env _ .nearest true).trans
      (expandAt_readsOn env _ Ahead.nearest.next true)).lines
  refine ⟨Sound.start env cache text path, ?_, ?_⟩
  · rw [hlines]
    exact Nat.zero_le _
  · rw [hlines]
    nofun

theorem Within.opened (cache : TokenCache) (text : String)
    (path : Option String) :
    Within (lineBreaks text.toList)
      (State.opened cache text path).source := by
  obtain ⟨htokens, mark, hmark, howner, hline⟩ := tokenize_lines text
  have hroot : ∀ (chain : IncludeChain) {t : Token}, t.owner = 0 →
      chain.rootLine t = t.start.line := fun chain t ht => if_pos ht
  refine ⟨?_, fun t ht => ?_, fun t ht => ?_, mark, hmark, ?_⟩
  · show ((((tokenize text).getLast?.filter (·.isEof)).getD
      (Token.eof .origin 0)).isEof) = true
    cases hl : (tokenize text).getLast?.filter (·.isEof) with
    | none => rfl
    | some v => exact (Option.filter_eq_some_iff.1 hl).2
  · rw [(htokens t ht).1]
    exact Nat.zero_lt_one
  · rw [hroot _ (htokens t ht).1]
    exact (htokens t ht).2
  · rw [hroot _ howner, hline]

theorem Within.start (env : Environment) (cache : TokenCache) (text : String)
    (path : Option String) :
    Within (lineBreaks text.toList) (State.start env cache text path).source :=
  (Within.opened cache text path).edits
    ((expandAt_edits env _ .nearest true).trans
      (expandAt_edits env _ Ahead.nearest.next true))

end Parse

-- ================================================================= parses

/-- Every line of a text has a state, and no more than these: one for each
line break and one for the end. What the states say fits the items. -/
theorem parse_lines {steps : Nat} {env : Environment} {cache : TokenCache}
    {text : String} {path : Option String} {r : Parse.Result}
    (h : parse? steps env cache text path = some r) :
    r.file.lines.length = lineBreaks text.toList + 1
      ∧ ∀ l ∈ r.file.lines, LineFits r.file.items l := by
  obtain ⟨s, hrun, rfl⟩ := Option.map_eq_some_iff.1 h
  obtain ⟨hrec, hcurrent⟩ := (Parse.Recorded.start env cache text path).run
    (Parse.Within.start env cache text path) hrun
  have hkeeps := Parse.finish_keeps env s
  have hend := hrec.recordLine (Nat.le_refl (lineBreaks text.toList))
  have hlines : (s.finish env).findings.lines
      = (s.recordLine (lineBreaks text.toList)).findings.lines := by
    rw [(Parse.finish_leaves env s).2, hcurrent]
  have hfinish := hend.extend (hkeeps.sound hrec.sound)
    (hkeeps.extends hrec.sound) hlines
  have hsize : (s.finish env).findings.lines.size
      = lineBreaks text.toList + 1 := by
    have hle := hrec.size
    rw [hlines]
    show (Parse.State.putAt s.findings.lines _ _).size = _
    rw [Parse.size_putAt]
    omega
  refine ⟨?_, fun l hl => hfinish.fits l ?_⟩
  · show (LineState.fill _).length = _
    rw [LineState.length_fill, Array.length_toList, hsize]
  · have hlast : (s.finish env).findings.lines.toList.getLast?
        = some (some (.ofNesting s.nesting)) := by
      rw [List.getLast?_eq_getElem?, Array.length_toList, hsize,
        Nat.add_sub_cancel, Array.getElem?_toList, hlines]
      exact Parse.getElem?_putAt_self
    exact Array.mem_toList_iff.1 (mem_fill hlast hl)

/-- An included file of two lines, a comment over a line break, and line breaks
of each sort: four breaks, five lines, and a procedure open at the end. -/
theorem parse_lines_inclusion :
    ∃ r, parse? 60 { resolver := .ofFiles [("a.i", some "RUN a.\nRUN b.\n")] false }
        {} "\x7ba.i\x7d\n/* x\r\ny */\rPROCEDURE p:\n" none = some r
      ∧ r.file.lines.length = 5
      ∧ (r.file.lines.map (·.frames.length)) = [1, 1, 1, 2, 2]
      ∧ ∀ l ∈ r.file.lines, LineFits r.file.items l := by
  have hrun : (((parse? 60
      { resolver := .ofFiles [("a.i", some "RUN a.\nRUN b.\n")] false } {}
      "\x7ba.i\x7d\n/* x\r\ny */\rPROCEDURE p:\n" none).map
      fun r => r.file.lines.map (·.frames.length))) = some [1, 1, 1, 2, 2] := by
    decide +kernel
  obtain ⟨r, hr, hframes⟩ := Option.map_eq_some_iff.1 hrun
  obtain ⟨hlength, hfits⟩ := parse_lines hr
  refine ⟨r, hr, ?_, hframes, hfits⟩
  rw [hlength]
  decide +kernel

end AblOutline
