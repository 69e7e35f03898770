/-
Where the items of a parse are found. The first item is the file; every other
one stands at a token of one of the files, and an item of the file being read at
a token of its text, or at one that stands for a reference of it. A buffer is
always found as one, never as a definition like others (`parse_found`).

`Noted` is kept from token to token. What is read between two expansions finds
items at tokens that are known (`Notes`), and the file that a directive brings
in makes no token less known (`Known.push`).
-/
import AblOutline.Proofs.Inclusion

namespace AblOutline.Parse

-- ==================================================================== known

section Known

variable {text : String} {c : IncludeChain} {f : ChainFile} {t : Token}

theorem Known.push (h : Known text c t) : Known text (c.push f) t := by
  have hsize : (c.push f).size = c.size + 1 := Array.size_push _
  exact ⟨hsize ▸ Nat.lt_succ_of_lt h.owner, h.own⟩

end Known

/-- All items but the file stand at known tokens, and no buffer is defined like
anything else. -/
structure Noted (text : String) (s : State) : Prop where
  found : ∃ file found, s.marks = file :: found
    ∧ ∀ m ∈ found, Known text s.source.chain m.token
  defined : ∀ m ∈ s.marks, m.defined ≠ some .buffer
  statement : s.analysis.statement.IsFrom (Known text s.source.chain)

namespace Noted

variable {text : String} {env : Environment} {steps : Nat} {a : Ahead}
  {s s' : State}

/-- What finds items only keeps it. -/
theorem notes (h : Noted text s)
    (hn : Notes (Known text s.source.chain) s s') : Noted text s' := by
  obtain ⟨file, found, hmarks, hfound⟩ := h.found
  obtain ⟨new, hnew, hall⟩ := hn.marks
  refine ⟨⟨file, found ++ new, ?_, fun m hm => ?_⟩, fun m hm => ?_, ?_⟩
  · rw [hnew, hmarks, List.cons_append]
  · rw [hn.chain]
    exact (List.mem_append.1 hm).elim (hfound m) fun hm => (hall m hm).1
  · rw [hnew] at hm
    exact (List.mem_append.1 hm).elim (h.defined m) fun hm => (hall m hm).2.2
  · rw [hn.chain]
    exact hn.statement h.statement

/-- A file is brought in, and its item is found at its directive. -/
theorem grown (h : Noted text s) {t : Token} {f : ChainFile}
    {opened : Option Nat} (ht : Known text s.source.chain t)
    (hchain : s'.source.chain = s.source.chain.push f)
    (hmarks : s'.marks = s.marks ++ [⟨t, opened, none⟩])
    (hanalysis : s'.analysis = s.analysis) : Noted text s' := by
  obtain ⟨file, found, hold, hfound⟩ := h.found
  refine ⟨⟨file, found ++ [⟨t, opened, none⟩], ?_, fun m hm => ?_⟩,
    fun m hm => ?_, fun part hpart => ?_⟩
  · rw [hmarks, hold, List.cons_append]
  · rw [hchain]
    rcases List.mem_append.1 hm with hm | hm
    · exact (hfound m hm).push
    · rw [List.mem_singleton.1 hm]
      exact ht.push
  · rw [hmarks] at hm
    rcases List.mem_append.1 hm with hm | hm
    · exact h.defined m hm
    · rw [List.mem_singleton.1 hm]
      nofun
  · rw [hanalysis] at hpart
    rw [hchain]
    exact (h.statement part hpart).push

theorem expandAt (h : Noted text s) (hi : Intact text s.source) :
    Noted text (s.expandAt env a true) := by
  rcases expandAt_cases env s a true with hsame | ⟨-, u, hu, hexpand⟩
  · rw [hsame]
    exact h
  have hexpands := hu.expands (fun _ ht => ht) ⟨hi, rfl⟩
  have h' := h.notes hexpands.notes
  have hi' := hi.edits hexpands.edits
  rw [hexpand, if_pos rfl]
  unfold State.expandInclude
  dsimp only
  have hmark : ∀ v : State, Noted text v → Noted text (v.markExpanded a) :=
    fun v hv => hv.notes (.aside rfl rfl rfl)
  split
  case isFalse => exact hmark u h'
  case isTrue hk =>
    refine hmark _ ?_
    have ht := IntactOver.known_peekAhead ⟨hi', rfl⟩ (isEof_of_kind hk nofun)
    rcases includeAt_cases env u a _ ht with ⟨hnotes, -⟩
      | ⟨-, -, f, -, -, hchain, -, hmarks, hanalysis⟩
    · exact h'.notes hnotes
    · exact h'.grown ht hchain hmarks hanalysis

theorem expandNext (h : Noted text s) (hi : Intact text s.source) :
    Noted text (s.expandNext env) := by
  unfold State.expandNext
  split
  · exact h.expandAt hi
  · exact h

theorem opened (cache : TokenCache) (text : String) (path : Option String) :
    Noted text (State.opened cache text path) := by
  refine ⟨⟨_, [], rfl, nofun⟩, fun m hm => ?_, nofun⟩
  rw [List.mem_singleton.1 hm]
  nofun

theorem start (env : Environment) (cache : TokenCache) (text : String)
    (path : Option String) : Noted text (State.start env cache text path) := by
  have hopened := Intact.opened cache text path
  have hfirst := hopened.edits
    (expandAt_edits env (State.opened cache text path) .nearest true)
  exact ((opened cache text path).expandAt hopened).expandAt hfirst

/-- All that a run reads. -/
theorem run (h : Noted text s) (hi : Intact text s.source)
    (hrun : s.run env steps = some s') : Noted text s' := by
  induction steps generalizing s with
  | zero => cases hrun
  | succ steps ih =>
      cases hu : s.advance? with
      | none =>
          rw [run_stop hu] at hrun
          cases hrun
          exact h
      | some u =>
          have hi' := hi.advance hu
          have hadvanced : Noted text u := by
            obtain ⟨cursor, -, rfl⟩ := Option.map_eq_some_iff.1 hu
            exact h.notes (.aside rfl rfl rfl)
          have hcurrent := hi'.mem_known (Included.current_mem hu)
          cases heof : u.source.cursor.current.isEof with
          | true =>
              rw [run_eof hu heof] at hrun
              cases hrun
              exact hadvanced
          | false =>
              rw [run_next hu heof, step_eq] at hrun
              obtain ⟨_, hnext, hrun⟩ := Option.bind_eq_some_iff.1 hrun
              obtain ⟨v, hv, rfl⟩ := Option.map_eq_some_iff.1 hnext
              have htaken := hadvanced.notes (takeToken_notes (fun _ ht => ht)
                ⟨hi', rfl⟩ hcurrent hadvanced.statement hv)
              have hi'' := hi'.edits (takeToken_edits hv)
              exact ih (htaken.expandNext hi'')
                (hi''.edits (expandNext_edits env v)) hrun

end Noted

end Parse

open Parse

-- =================================================================== parses

variable {steps : Nat} {env : Environment} {cache : TokenCache}
  {text : String} {path : Option String} {r : Result}

theorem parse_forest (h : parse? steps env cache text path = some r) :
    Forest r.file.items := by
  obtain ⟨s, hs, rfl⟩ := Sound.parse h
  exact hs.forest

/-- All items of a parse but the file stand at known tokens, and no buffer is
found as a definition. -/
theorem parse_found (h : parse? steps env cache text path = some r) {i : Item}
    (hi : i ∈ r.file.items) :
    (i.content.reportName ≠ "file" → Known text r.file.chain i.token)
      ∧ i.content.defined? ≠ some .buffer := by
  have hforest := parse_forest h
  obtain ⟨s, hrun, rfl⟩ := Option.map_eq_some_iff.1 h
  have hnoted : Noted text (s.finish env) := by
    have hend := (Noted.start env cache text path).run
      (Intact.start env cache text path) hrun
    exact hend.notes (finish_notes env hend.statement)
  refine ⟨fun hsort => ?_, hnoted.defined i.mark
    (List.mem_map_of_mem (Array.mem_toList_iff.2 hi))⟩
  obtain ⟨file, found, hmarks, hfound⟩ := hnoted.found
  obtain ⟨first, rest, hitems, rfl, rfl⟩ := List.map_eq_cons_iff.1 hmarks
  have hi := Array.mem_toList_iff.2 hi
  change i ∈ (s.finish env).findings.items.toList at hi
  rw [hitems] at hi
  rcases List.mem_cons.1 hi with rfl | hi
  · -- the first item is the file
    have hfirst : (s.finish env).findings.items[0]? = some i := by
      rw [← Array.getElem?_toList, hitems]
      rfl
    exact absurd ((hforest.file hfirst).2 rfl) hsort
  · exact hfound i.mark (List.mem_map_of_mem hi)

end AblOutline
