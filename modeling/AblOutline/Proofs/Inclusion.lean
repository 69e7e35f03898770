/-
The files that a parse brings in. They are a tree whose height is bounded, and
each counts for one line of the file being read. Tokens and items belong to
files of the tree; the items of include directives tell of each file once, in
the order of the files; and no directive is carried out twice
(`parse_includes`).

`Included` is kept from token to token: what is read between two expansions
finds items only, and an expansion carries out one directive at most.
-/
import AblOutline.Proofs.Inclusion.Openings

namespace AblOutline.Parse

-- ===================================================================== log

namespace State

/-- The include directive that is carried out before the next token. -/
def nextOpening? (env : Environment) (s : State) : Option Opening :=
  if s.source.skip = 0 && !s.inFalseBranch then s.opening? env .nearest
  else none

/-- The include directives that a run carries out, the first one first. -/
def openings (env : Environment) : Nat → State → List Opening
  | 0, _ => []
  | steps + 1, s =>
    match s.advance? with
    | none => []
    | some s =>
      let t := s.source.cursor.current
      if t.isEof then []
      else
        match s.takeToken env steps t with
        | none => []
        | some s =>
          (s.nextOpening? env).toList ++ openings env steps (s.expandNext env)

end State

section Openings

variable {env : Environment} {steps : Nat} {s u : State}

theorem openings_stop (h : s.advance? = none) :
    s.openings env (steps + 1) = [] := by
  unfold State.openings
  rw [h]

theorem openings_eof (h : s.advance? = some u)
    (heof : u.source.cursor.current.isEof = true) :
    s.openings env (steps + 1) = [] := by
  unfold State.openings
  rw [h]
  exact if_pos heof

theorem openings_next (h : s.advance? = some u)
    (heof : u.source.cursor.current.isEof = false) :
    s.openings env (steps + 1)
      = (u.takeToken env steps u.source.cursor.current).elim [] fun v =>
          (v.nextOpening? env).toList
            ++ (v.expandNext env).openings env steps := by
  conv => lhs; unfold State.openings
  rw [h]
  dsimp only
  rw [heof]
  refine (if_neg Bool.false_ne_true).trans ?_
  cases u.takeToken env steps u.source.cursor.current <;> rfl

end Openings

/-- The include directives that a parse carries out. -/
def openings (steps : Nat) (env : Environment) (cache : TokenCache)
    (text : String) (path : Option String) : List Opening :=
  let opened := State.opened cache text path
  let first := opened.expandAt env .nearest true
  (opened.opening? env .nearest).toList
    ++ (first.opening? env Ahead.nearest.next).toList
    ++ (State.start env cache text path).openings env steps

/-- The tokens of a parse, as they stand at its end. -/
def stream? (steps : Nat) (env : Environment) (cache : TokenCache)
    (text : String) (path : Option String) : Option (List Token) :=
  ((State.start env cache text path).run env steps).map
    (·.source.cursor.tokens)

-- ==================================================================== runs

namespace Included

variable {limit steps : Nat} {log : List Opening} {s s' : State}
  {text : String} {env : Environment}

theorem opened (limit : Nat) (cache : TokenCache) (text : String)
    (path : Option String) :
    Included limit [] (State.opened cache text path) := by
  refine ⟨.singleton limit rfl rfl, rfl, fun m hm => ?_, nofun, rfl, .nil,
    nofun, nofun⟩
  rw [List.mem_singleton.1 hm]
  exact Nat.zero_lt_one

theorem start (env : Environment) (cache : TokenCache) (text : String)
    (path : Option String) :
    Included env.options.maxIncludeDepth
      (((State.opened cache text path).opening? env .nearest).toList
        ++ (((State.opened cache text path).expandAt env .nearest
          true).opening? env Ahead.nearest.next).toList)
      (State.start env cache text path) := by
  have hopened := Intact.opened cache text path
  have hfirst : Included env.options.maxIncludeDepth
      ((State.opened cache text path).opening? env .nearest).toList
      ((State.opened cache text path).expandAt env .nearest true) :=
    (opened _ cache text path).expandAt hopened
  exact hfirst.expandAt (hopened.edits (expandAt_edits env _ .nearest true))

theorem expandNext (h : Included env.options.maxIncludeDepth log s)
    (hi : Intact text s.source) :
    Included env.options.maxIncludeDepth
      (log ++ (s.nextOpening? env).toList) (s.expandNext env) := by
  unfold State.nextOpening? State.expandNext
  split
  · exact h.expandAt hi
  · rw [Option.toList_none, List.append_nil]
    exact h

theorem current_mem (hs : s.advance? = some s') :
    s'.source.cursor.current ∈ s'.source.cursor.tokens := by
  obtain ⟨cursor, hcursor, rfl⟩ := Option.map_eq_some_iff.1 hs
  unfold Cursor.advance? at hcursor
  split at hcursor
  · cases hcursor
  · cases hcursor
    exact List.mem_append_left _ (List.mem_reverse.2 List.mem_cons_self)

/-- The cursor moves on. -/
theorem advance (h : Included limit log s) (hs : s.advance? = some s') :
    Included limit log s' := by
  obtain ⟨cursor, hcursor, rfl⟩ := Option.map_eq_some_iff.1 hs
  refine h.notes (.aside rfl rfl rfl) ⟨?_, fun p t _ ht => ?_⟩
  · have hpassed : cursor.passed.length
        = s.source.cursor.passed.length + 1 := by
      unfold Cursor.advance? at hcursor
      split at hcursor
      · cases hcursor
      · cases hcursor
        exact List.length_cons
    show s.source.cursor.passed.length + s.source.expanded
      ≤ cursor.passed.length + (s.source.expanded - 1)
    omega
  · exact (Cursor.tokens_advance? hcursor).symm ▸ ht

/-- All that a run reads. -/
theorem run (h : Included env.options.maxIncludeDepth log s)
    (hi : Intact text s.source) (hrun : s.run env steps = some s') :
    Included env.options.maxIncludeDepth (log ++ s.openings env steps) s' := by
  induction steps generalizing s log with
  | zero => cases hrun
  | succ steps ih =>
      cases hu : s.advance? with
      | none =>
          rw [run_stop hu] at hrun
          cases hrun
          rw [openings_stop hu, List.append_nil]
          exact h
      | some u =>
          have hadvanced := h.advance hu
          have hi' := hi.advance hu
          have hcurrent : u.source.cursor.current.owner < u.source.chain.size :=
            hi'.known _ (current_mem hu)
          cases heof : u.source.cursor.current.isEof with
          | true =>
              rw [run_eof hu heof] at hrun
              cases hrun
              rw [openings_eof hu heof, List.append_nil]
              exact hadvanced
          | false =>
              rw [run_next hu heof, step_eq] at hrun
              rw [openings_next hu heof]
              obtain ⟨_, hnext, hrun⟩ := Option.bind_eq_some_iff.1 hrun
              obtain ⟨v, hv, rfl⟩ := Option.map_eq_some_iff.1 hnext
              have hedits := takeToken_edits hv
              have htaken := hadvanced.notes
                (takeToken_notes (fun _ => Known.owner) ⟨hi', rfl⟩ hcurrent
                  hadvanced.statement hv)
                (.edits hedits)
              have hi'' := hi'.edits hedits
              have hrest := ih (htaken.expandNext hi'')
                (hi''.edits (expandNext_edits env v)) hrun
              rw [hv, Option.elim_some, ← List.append_assoc]
              exact hrest

/-- All that is done at the end of the tokens. -/
theorem finish (h : Included limit log s) :
    Included limit log (s.finish env) :=
  h.notes (finish_notes env h.statement)
    ((finish_leaves env s).1.symm ▸ .refl s.source)

end Included

end Parse

open Parse

-- ================================================================== parses

/-- What the result of a parse tells of its files, where the stream ends as
`stream` and the directives of `log` were carried out. -/
structure ReadFrom (limit : Nat) (log : List Opening) (stream : List Token)
    (file : ParsedFile) : Prop where
  tree : IncludeTree limit file.chain
  tokens : ∀ t ∈ stream, t.owner < file.chain.size
  items : ∀ i ∈ file.items, i.owner < file.chain.size
  /-- Items stand in the order of their numbers. -/
  number : ∀ (n : Nat) (i : Item), file.items[n]? = some i → i.id = n
  files : file.items.toList.filterMap (·.content.opened?)
    = List.range' 1 (file.chain.size - 1)
  /-- The directives that brought in the files. -/
  opened : log.filterMap (·.file) = List.range' 1 (file.chain.size - 1)
  /-- None is carried out twice: each stands behind all before it. -/
  once : log.Pairwise fun o o' => o.place < o'.place
  directive : ∀ o ∈ log, ∃ t, stream[o.place]? = some t
    ∧ t.kind = .inclusion
    ∧ ∀ n, o.file = some n →
      ∃ f, file.chain.get? n = some f ∧ f.trigger = some t

/-- The files of a parse are a bounded tree, which its tokens and its items
belong to, and each is brought in once. -/
theorem parse_includes {steps : Nat} {env : Environment} {cache : TokenCache}
    {text : String} {path : Option String} {r : Result}
    (h : parse? steps env cache text path = some r) :
    ∃ stream, stream? steps env cache text path = some stream
      ∧ r.file.tokens
        = (if env.options.keepExpandedText then some stream else none)
      ∧ ReadFrom env.options.maxIncludeDepth
        (openings steps env cache text path) stream r.file := by
  have hforest : Forest r.file.items := by
    obtain ⟨s, hs, rfl⟩ := Sound.parse h
    exact hs.forest
  obtain ⟨s, hrun, rfl⟩ := Option.map_eq_some_iff.1 h
  have hstart := Intact.start env cache text path
  have hincluded : Included env.options.maxIncludeDepth
      (openings steps env cache text path) (s.finish env) :=
    ((Included.start env cache text path).run hstart hrun).finish
  have hsource : (s.finish env).source = s.source := (finish_leaves env s).1
  have hknown := (hstart.run hrun).known
  rw [← hsource] at hknown
  refine ⟨(s.finish env).source.cursor.tokens, ?_, rfl, hincluded.tree, hknown,
    fun i hi => ?_, fun id i hi => hforest.number hi, ?_, hincluded.log.files,
    hincluded.log.ordered, hincluded.log.directive⟩
  · rw [hsource]
    exact congrArg (Option.map _) hrun
  · exact hincluded.owners i.mark
      (List.mem_map_of_mem (Array.mem_toList_iff.2 hi))
  · have hfiles := hincluded.files
    unfold State.marks at hfiles
    rw [List.filterMap_map] at hfiles
    exact hfiles

/-- A file that includes itself, where two files deep is as far as it goes. -/
def endlessFile : Environment :=
  { options := { maxIncludeDepth := 2 }
    resolver := .ofFiles [("a.i", some "y \x7ba.i\x7d.\n")] false }

/-- Its directive is carried out three times, at three places, and brings in two
files, which count for the line of the first directive. -/
theorem parse_includes_itself :
    ∃ r, parse? 60 endlessFile {} "x\n\x7ba.i\x7d" none = some r
      ∧ r.file.chain.files.toList.map (·.rootLine) = [0, 1, 1]
      ∧ openings 60 endlessFile {} "x\n\x7ba.i\x7d" none
        = [⟨2, some 1⟩, ⟨5, some 2⟩, ⟨8, none⟩]
      ∧ ∃ stream, stream? 60 endlessFile {} "x\n\x7ba.i\x7d" none = some stream
        ∧ ReadFrom 2 (openings 60 endlessFile {} "x\n\x7ba.i\x7d" none) stream
          r.file := by
  have hrun : ((parse? 60 endlessFile {} "x\n\x7ba.i\x7d" none).map
      fun r => r.file.chain.files.toList.map (·.rootLine))
      = some [0, 1, 1] := by
    decide +kernel
  obtain ⟨r, hr, hlines⟩ := Option.map_eq_some_iff.1 hrun
  obtain ⟨stream, hstream, -, hread⟩ := parse_includes hr
  exact ⟨r, hr, hlines, by decide +kernel, stream, hstream, hread⟩

end AblOutline
