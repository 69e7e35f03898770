/-
Root lines never go back. Whatever is put into the stream, the tokens that a
parse takes count for lines of the file being read that never go back, and so
do the files that are brought in, in the order of their numbers. So nothing is
found below the last line, and no block ends above the line where its item was
found (`parse_rootLines`).

A run keeps two invariants: the stream ahead is in order (`Ascending`), and what
is found fits the line of the last token taken (`Dated`).
-/
import AblOutline.Proofs.RootLines.Reading

namespace AblOutline.Parse

-- ================================================================== tokens

/-- The tokens that a run takes, the first one first. -/
def State.trail (env : Environment) : Nat → State → List Token
  | 0, _ => []
  | steps + 1, s =>
    match s.advance? with
    | none => []
    | some s =>
      let t := s.source.cursor.current
      if t.isEof then []
      else
        match s.step env steps t with
        | none => []
        | some s => t :: trail env steps s

section Trail

variable {env : Environment} {steps : Nat} {s u v : State}

theorem trail_stop (h : s.advance? = none) : s.trail env (steps + 1) = [] := by
  unfold State.trail
  rw [h]

theorem trail_eof (h : s.advance? = some u)
    (heof : u.source.cursor.current.isEof = true) :
    s.trail env (steps + 1) = [] := by
  unfold State.trail
  rw [h]
  exact if_pos heof

theorem trail_next (h : s.advance? = some u)
    (heof : u.source.cursor.current.isEof = false)
    (hv : u.step env steps u.source.cursor.current = some v) :
    s.trail env (steps + 1)
      = u.source.cursor.current :: v.trail env steps := by
  conv => lhs; unfold State.trail
  rw [h]
  dsimp only
  rw [heof, if_neg Bool.false_ne_true, hv]

end Trail

/-- A run takes the tokens ahead, as they stand at its end, up to the end
mark. -/
theorem Within.trail {env : Environment} {last steps : Nat} {s s' : State}
    (h : Within last s.source) (hrun : s.run env steps = some s') :
    (∀ t ∈ s.trail env steps, t.isEof = false)
      ∧ ∃ mark rest, mark.isEof = true ∧ s'.source.cursor.tokens
        = s.source.cursor.passed.reverse
          ++ (s.trail env steps ++ mark :: rest) := by
  induction steps generalizing s with
  | zero => cases hrun
  | succ steps ih =>
      obtain ⟨u, hu, hcurrent⟩ := h.advance
      have hpassed : u.source.cursor.passed
          = u.source.cursor.current :: s.source.cursor.passed := by
        obtain ⟨cursor, hcursor, rfl⟩ := Option.map_eq_some_iff.1 hu
        unfold Cursor.advance? at hcursor
        split at hcursor
        · cases hcursor
        · cases hcursor
          rfl
      cases heof : u.source.cursor.current.isEof with
      | true =>
          rw [run_eof hu heof] at hrun
          cases hrun
          rw [trail_eof hu heof]
          refine ⟨nofun, s'.source.cursor.current, s'.source.cursor.ahead,
            heof, ?_⟩
          unfold Cursor.tokens
          rw [hpassed, List.reverse_cons, List.append_assoc]
          rfl
      | false =>
          rw [heof, if_neg Bool.false_ne_true] at hcurrent
          rw [run_next hu heof] at hrun
          obtain ⟨v, hv, hrun⟩ := Option.bind_eq_some_iff.1 hrun
          have hedits := step_edits hv
          obtain ⟨hall, mark, rest, hmark, htokens⟩ :=
            ih (hcurrent.1.edits hedits) hrun
          rw [trail_next hu heof hv]
          refine ⟨List.forall_mem_cons.2 ⟨heof, hall⟩, mark, rest, hmark, ?_⟩
          rw [htokens, hedits.passed, hpassed, List.reverse_cons,
            List.append_assoc]
          rfl

/-- A parse takes the tokens of its stream up to the end mark. -/
theorem trail_start {env : Environment} {cache : TokenCache} {text : String}
    {path : Option String} {steps : Nat} {s : State}
    (hrun : (State.start env cache text path).run env steps = some s) :
    (State.start env cache text path).trail env steps
      = s.source.cursor.tokens.takeWhile (!·.isEof) := by
  have hpassed :
      (State.start env cache text path).source.cursor.passed = [] :=
    (expandAt_edits env _ Ahead.nearest.next true).passed.trans
      (expandAt_edits env _ .nearest true).passed
  obtain ⟨hbefore, mark, rest, hmark, htokens⟩ :=
    (Within.start env cache text path).trail hrun
  rw [htokens, hpassed, List.reverse_nil, List.nil_append,
    List.takeWhile_append_of_pos fun t ht => ?_,
    List.takeWhile_cons_of_neg (by rw [hmark]; nofun), List.append_nil]
  rw [hbefore t ht]
  rfl

/-- The tokens that a run takes are of files that were brought in, and count
for lines that never go back; nor do those of the files. -/
theorem Ascending.run {env : Environment} {now steps : Nat} {s s' : State}
    (h : Ascending now s.source) (hrun : s.run env steps = some s') :
    (∀ t ∈ s.trail env steps, t.owner < s'.source.chain.size)
      ∧ (now :: (s.trail env steps).map s'.source.chain.rootLine).Pairwise
        (· ≤ ·)
      ∧ s'.source.chain.files.toList.Pairwise (·.rootLine ≤ ·.rootLine) := by
  induction steps generalizing now s with
  | zero => cases hrun
  | succ steps ih =>
      cases hu : s.advance? with
      | none =>
          rw [run_stop hu] at hrun
          cases hrun
          rw [trail_stop hu]
          exact ⟨nofun, List.pairwise_singleton .., h.files⟩
      | some u =>
          obtain ⟨h', howner, hnow⟩ := h.advance hu
          cases heof : u.source.cursor.current.isEof with
          | true =>
              rw [run_eof hu heof] at hrun
              cases hrun
              rw [trail_eof hu heof]
              exact ⟨nofun, List.pairwise_singleton .., h'.files⟩
          | false =>
              rw [run_next hu heof] at hrun
              obtain ⟨v, hv, hrun⟩ := Option.bind_eq_some_iff.1 hrun
              have hedits := step_edits hv
              obtain ⟨howners, hlines, hfiles⟩ := ih (h'.edits hedits) hrun
              -- the token counts for the same line to the end
              obtain ⟨hthere, hline⟩ := hedits.grows.rootLine howner
              obtain ⟨hend, hkept⟩ := (run_grows hrun).rootLine hthere
              rw [trail_next hu heof hv, List.map_cons, hkept.trans hline]
              refine ⟨List.forall_mem_cons.2 ⟨hend, howners⟩,
                List.pairwise_cons.2 ⟨fun n hn => ?_, hlines⟩, hfiles⟩
              rcases List.mem_cons.1 hn with rfl | hn
              · exact hnow
              · exact hnow.trans (List.rel_of_pairwise_cons hlines hn)

-- ================================================================= findings

namespace Dated

variable {env : Environment} {last since now steps : Nat} {s s' : State}

theorem opened (last : Nat) (cache : TokenCache) (text : String)
    (path : Option String) :
    Dated last 0 0 (State.opened cache text path) := by
  have hfile : Begun (State.opened cache text path).ranges 0 0 :=
    ⟨⟨0, none⟩, rfl, Nat.le_refl 0⟩
  refine ⟨Nat.le_refl 0, Nat.zero_le _, fun r hr => ?_, nofun, fun o ho => ?_,
    nofun, nofun, nofun⟩
  · rw [List.mem_singleton.1 hr]
    exact ⟨Nat.zero_le _, nofun⟩
  · rw [List.mem_singleton.1 ho]
    refine ⟨Nat.zero_le _, nofun, fun id hid => ?_⟩
    cases hid
    exact hfile

theorem start (env : Environment) (cache : TokenCache) (text : String)
    (path : Option String) :
    Dated (lineBreaks text.toList) 0 0 (State.start env cache text path) := by
  have hw := Within.opened cache text path
  have hfirst : Dated (lineBreaks text.toList) 0 0
      ((State.opened cache text path).expandAt env .nearest true) :=
    (opened _ cache text path).expandAt hw .nearest true
  exact hfirst.expandAt (hw.edits (expandAt_edits env _ .nearest true)) _ true

/-- A run ends on the last line. -/
theorem run (h : Dated last since now s) (ha : Ascending now s.source)
    (hw : Within last s.source) (hrun : s.run env steps = some s') :
    (∃ since, Dated last since last s')
      ∧ s'.rootLine s'.source.cursor.current = last := by
  induction steps generalizing since now s with
  | zero => cases hrun
  | succ steps ih =>
      obtain ⟨u, hu, hcurrent⟩ := hw.advance
      obtain ⟨ha', howner, hnow⟩ := ha.advance hu
      have hmoved : Dated last since now u := by
        obtain ⟨cursor, -, rfl⟩ := Option.map_eq_some_iff.1 hu
        exact h.source rfl
      cases heof : u.source.cursor.current.isEof with
      | true =>
          rw [if_pos heof] at hcurrent
          rw [run_eof hu heof] at hrun
          cases hrun
          exact ⟨⟨since, hmoved.later (hnow.trans (Nat.le_of_eq hcurrent))
            (Nat.le_refl last)⟩, hcurrent⟩
      | false =>
          rw [heof, if_neg Bool.false_ne_true] at hcurrent
          obtain ⟨hw', hlast⟩ := hcurrent
          rw [run_next hu heof] at hrun
          obtain ⟨v, hv, hrun⟩ := Option.bind_eq_some_iff.1 hrun
          obtain ⟨since', hdated⟩ := (hmoved.later hnow hlast).step hw'
            ⟨howner, Nat.le_refl _, Nat.le_refl _⟩ hv
          exact ih hdated (ha'.edits (step_edits hv))
            (hw'.edits (step_edits hv)) hrun

/-- A scope that is left open counts for a line that was reached. -/
theorem leave (h : Dated last since last s) {o : OpenScope}
    (ho : o ∈ s.nesting.scopes) (depth : Nat) :
    Dated last since last (s.leave last o depth) := by
  have hscope := h.scopes o ho
  unfold State.leave
  split
  · rename_i item hfile
    cases hset : s.setEndLine? item last with
    | none => exact h
    | some u =>
        refine h.ended (hscope.item item ?_) (Nat.le_refl last) hset
        rw [hfile]
        rfl
  · split
    · exact h.addErrorAt _ _ hscope.line depth
    · exact h

theorem leaveAll (h : Dated last since last s) {scopes : List OpenScope}
    (hscopes : scopes ⊆ s.nesting.scopes) :
    Dated last since last (s.leaveAll last scopes) := by
  induction scopes generalizing s with
  | nil => exact h
  | cons o around ih =>
      obtain ⟨ho, haround⟩ := List.cons_subset.1 hscopes
      refine ih (h.leave ho _) ?_
      rw [leave_nesting]
      exact haround

/-- The end of the tokens, on the last line. -/
theorem finish (env : Environment) (h : Dated last since last s)
    (hline : s.rootLine s.source.cursor.current = last) :
    ∃ since, Dated last since last (s.finish env) := by
  have hrecord : Dated last since last (s.recordLine last) :=
    h.mono (fun _ _ hf => hf) (fun _ _ hid => hid) h.ranges rfl rfl rfl
  have hend : ∃ since, Dated last since last
      ((s.recordLine last).endLast env s.source.cursor.current) := by
    obtain ⟨htake, htaken⟩ := hrecord.takeStatement
    unfold State.endLast
    dsimp only
    split
    · exact ⟨since, htake⟩
    · exact ⟨last, htake.endStatement htaken env _⟩
  obtain ⟨since', hdated⟩ := hend
  unfold State.finish
  dsimp only
  rw [hline]
  exact ⟨since', hdated.leaveAll (List.Subset.refl _)⟩

end Dated

end Parse

-- =================================================================== parses

variable {steps : Nat} {env : Environment} {cache : TokenCache}
  {text : String} {path : Option String} {r : Parse.Result}

/-- The tokens that a parse takes, those of its stream up to the end mark, count
for lines of its text that never go back, and so do the files that it brings in.
What it finds counts for lines up to the last one, and no block ends above the
line of its item. -/
theorem parse_rootLines (h : parse? steps env cache text path = some r) :
    let trail := (Parse.State.start env cache text path).trail env steps
    let last := lineBreaks text.toList
    (∀ ts, r.file.tokens = some ts → trail = ts.takeWhile (!·.isEof))
      ∧ (∀ t ∈ trail, t.owner < r.file.chain.size)
      ∧ (trail.map r.file.chain.rootLine).Pairwise (· ≤ ·)
      ∧ (∀ i ∈ r.file.items, i.rootLine ≤ last
        ∧ ∀ line, i.endLine = some line → i.rootLine ≤ line ∧ line ≤ last)
      ∧ (∀ e ∈ r.file.errors, e.rootLine ≤ last)
      ∧ r.file.chain.files.toList.Pairwise (·.rootLine ≤ ·.rootLine) := by
  intro trail last
  obtain ⟨s, hrun, rfl⟩ := Option.map_eq_some_iff.1 h
  have hascending := Parse.Ascending.start env cache text path
  have hwithin := Parse.Within.start env cache text path
  obtain ⟨howners, hlines, hfiles⟩ := hascending.run hrun
  obtain ⟨⟨since, hdated⟩, hline⟩ :=
    (Parse.Dated.start env cache text path).run hascending hwithin hrun
  obtain ⟨since', hend⟩ := hdated.finish env hline
  have hsource := (Parse.finish_leaves env s).1
  refine ⟨fun ts hts => ?_, ?_, ?_, fun i hi => ?_, hend.errors, ?_⟩
  · have hkept : ts = s.source.cursor.tokens := by
      change (if env.options.keepExpandedText then
        some (s.finish env).source.cursor.tokens else none) = some ts at hts
      split at hts
      · rw [← hsource]
        exact (Option.some.inj hts).symm
      · cases hts
    rw [hkept]
    exact Parse.trail_start hrun
  · show ∀ t ∈ trail, t.owner < (s.finish env).source.chain.size
    rw [hsource]
    exact howners
  · show (trail.map (s.finish env).source.chain.rootLine).Pairwise _
    rw [hsource]
    exact (List.pairwise_cons.1 hlines).2
  · have hfits := hend.ranges i.range
      (List.mem_map_of_mem (Array.mem_toList_iff.2 hi))
    exact ⟨hfits.first, hfits.final⟩
  · show (s.finish env).source.chain.files.toList.Pairwise _
    rw [hsource]
    exact hfiles

/-- A procedure that is opened in an included file of two lines and ended in the
file being read, and a reference: the lines of the tokens taken, of the items
with the ends of their blocks, of an `&IF` that is left open, and of the
files. -/
theorem parse_rootLines_inclusion :
    ∃ r, parse? 80
        { resolver :=
            .ofFiles [("a.i", some "PROCEDURE p:\nRUN q.\n")] false } {}
        "&SCOPED-DEFINE y s\n\x7ba.i\x7d\nRUN \x7b&y\x7d.\nEND.\n&IF" none
        = some r
      ∧ r.file.items.toList.map (fun i => (i.rootLine, i.endLine))
        = [(0, some 4), (0, none), (1, none), (1, some 3), (1, none), (2, none),
          (2, none)]
      ∧ r.file.errors.map (·.rootLine) = [4]
      ∧ r.file.chain.files.toList.map (·.rootLine) = [0, 1]
      ∧ (∀ i ∈ r.file.items, i.rootLine ≤ 4
        ∧ ∀ line, i.endLine = some line → i.rootLine ≤ line ∧ line ≤ 4)
      ∧ (∀ e ∈ r.file.errors, e.rootLine ≤ 4)
      ∧ r.file.chain.files.toList.Pairwise (·.rootLine ≤ ·.rootLine) := by
  have hrun : ((parse? 80
      { resolver := .ofFiles [("a.i", some "PROCEDURE p:\nRUN q.\n")] false } {}
      "&SCOPED-DEFINE y s\n\x7ba.i\x7d\nRUN \x7b&y\x7d.\nEND.\n&IF" none).map
      fun r => (r.file.items.toList.map (fun i => (i.rootLine, i.endLine)),
        r.file.errors.map (·.rootLine),
        r.file.chain.files.toList.map (·.rootLine)))
      = some ([(0, some 4), (0, none), (1, none), (1, some 3), (1, none),
        (2, none), (2, none)], [4], [0, 1]) := by
    decide +kernel
  have hlast : lineBreaks
      "&SCOPED-DEFINE y s\n\x7ba.i\x7d\nRUN \x7b&y\x7d.\nEND.\n&IF".toList
        = 4 := by
    decide +kernel
  obtain ⟨r, hr, hvalues⟩ := Option.map_eq_some_iff.1 hrun
  obtain ⟨hitems, hvalues⟩ := Prod.mk.inj hvalues
  obtain ⟨herrors, hfiles⟩ := Prod.mk.inj hvalues
  obtain ⟨-, -, -, hends, hfaults, hascending⟩ := parse_rootLines hr
  rw [hlast] at hends hfaults
  exact ⟨r, hr, hitems, herrors, hfiles, hends, hfaults, hascending⟩

end AblOutline
