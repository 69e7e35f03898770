/-
A cache that is shared changes no result. Each parse of a `Sharing` follows
the parse of its text alone, over a cache of its own that was empty
(`Follows`): between its steps the cache may change, but it mirrors the
resolver, so whatever the parse gets from it are the tokens of the file. One
step keeps both (`Follows.step`), and by induction every history does
(`Sharing.Kept.moves`). A parse that has ended has the result it has alone,
and one that ends alone is never stuck (`cache_transparent`).

All this rests on the resolver giving one text to all spellings of a path. One
that does not can be told from an empty cache (`spellings_tell_cache`).
-/
import AblOutline.Proofs.Cached.Run

namespace AblOutline

/-- Alone, over an empty cache, the parse of the text comes to that result. -/
def ParsesTo (env : Environment) (text : String) (path : Option String)
    (file : ParsedFile) : Prop :=
  ∃ steps r, parse? steps env {} text path = some r ∧ r.file = file

namespace Parse

variable {env : Environment} {steps : Nat} {s s' u v : State}
  {text : String} {path : Option String} {c c' : TokenCache}

-- ============================================================ what is left

/-- A run from the state ends in `u`. -/
def EndsIn (env : Environment) (s u : State) : Prop :=
  ∃ steps, s.run env steps = some u

/-- Runs from the one state end where those from the other do. -/
def SameEnd (env : Environment) (s s' : State) : Prop :=
  ∀ u, EndsIn env s u ↔ EndsIn env s' u

/-- All the places expanded, one after the other. -/
def State.expandAll (env : Environment) (places : List Ahead) (s : State) :
    State :=
  places.foldl (fun s a => s.expandAt env a true) s

theorem expandAll_places (env : Environment) (s : State) :
    s.expandAll env s.places = s.expandNext env := by
  unfold State.places State.expandNext
  split <;> rfl

theorem endsIn_of_stop (h : s.advance? = none) : EndsIn env s s :=
  ⟨1, run_stop h⟩

theorem endsIn_of_eof (h : s.advance? = some u)
    (heof : u.source.cursor.current.isEof = true) : EndsIn env s u :=
  ⟨1, run_eof h heof⟩

/-- The run goes on after a token was taken. -/
theorem sameEnd_of_token (h : s.advance? = some u)
    (heof : u.source.cursor.current.isEof = false)
    (hv : u.takeToken env steps u.source.cursor.current = some v) :
    SameEnd env s (v.expandNext env) := by
  have hstep : ∀ {n}, steps ≤ n →
      u.step env n u.source.cursor.current = some (v.expandNext env) := by
    intro n hn
    rw [step_eq, takeToken_more hn hv]
    rfl
  intro w
  constructor
  · rintro ⟨n, hn⟩
    cases n with
    | zero => cases hn
    | succ n =>
        rw [run_next h heof] at hn
        obtain ⟨x, hx, hn⟩ := Option.bind_eq_some_iff.1 hn
        have hmax := step_more (Nat.le_max_left n steps) hx
        rw [hstep (Nat.le_max_right n steps)] at hmax
        exact ⟨n, (Option.some.inj hmax) ▸ hn⟩
  · rintro ⟨n, hn⟩
    refine ⟨max n steps + 1, ?_⟩
    rw [run_next h heof, hstep (Nat.le_max_right n steps)]
    exact run_more (Nat.le_max_left n steps) hn

-- ============================================================== following

/-- All paths are trusted. -/
abbrev AgreesAll (env : Environment) : State → State → Prop :=
  Agrees env.resolver fun _ => True

theorem Agrees.symm {r : Resolver} {trusted : String → Prop}
    (h : Agrees r trusted s s') : Agrees r trusted s' s := by
  refine ⟨?_, h.right, h.left⟩
  rw [h.differs]
  rfl

/-- The parse that shares its cache is where the parse of the text alone comes
to be: its state agrees with one from which that parse ends as it does. -/
inductive Follows (env : Environment) (text : String) (path : Option String) :
    Reader → Prop where
  | reading {s s' : State} {places : List Ahead} (h : AgreesAll env s s')
      (hrest : SameEnd env (.start env {} text path)
        (s.expandAll env places)) :
      Follows env text path ⟨s', .reading places⟩
  | storing {s s' : State} {p : String} {tokens : List Token} {a : Ahead}
      {places : List Ahead} (h : AgreesAll env s s')
      (hrest : SameEnd env (.start env {} text path)
        (s.expandAll env (a :: places)))
      (hfile : env.resolver.tokens? p = some tokens) :
      Follows env text path ⟨s', .storing p tokens a places⟩
  | closing {s s' : State} (h : AgreesAll env s s')
      (hend : EndsIn env (.start env {} text path) s) :
      Follows env text path ⟨s', .closing⟩
  | closed {s s' : State} (h : AgreesAll env s s')
      (hend : EndsIn env (.start env {} text path) s) :
      Follows env text path ⟨s', .closed⟩

namespace Follows

variable {r r' : Reader}

theorem start (env : Environment) (text : String) (path : Option String) :
    Follows env text path (.start text path) :=
  .reading (s := .opened {} text path)
    ⟨rfl, TokenCache.mirrorsOn_empty, TokenCache.mirrorsOn_empty⟩
    fun _ => Iff.rfl

/-- Over another cache the states still agree. -/
theorem withCache (h : AgreesAll env s s')
    (hc : c.MirrorsOn env.resolver fun _ => True) :
    AgreesAll env s (s'.withCache c) := by
  refine ⟨?_, h.left, hc⟩
  rw [h.differs]
  rfl

/-- A place is expanded over the cache as it is now. -/
theorem expand (hr : env.resolver.RespectsPaths) (h : AgreesAll env s s')
    (hc : c.MirrorsOn env.resolver fun _ => True) {a : Ahead}
    {places : List Ahead}
    (hrest : SameEnd env (.start env {} text path)
      (s.expandAll env (a :: places))) :
    Follows env text path (Reader.expand env c s' a places).2
      ∧ (Reader.expand env c s' a places).1.MirrorsOn env.resolver
        fun _ => True := by
  have hexpanded := (withCache h hc).expandAt hr.trustworthy a true
    (IncludeChain.trustedIn_true _)
  exact ⟨.reading hexpanded hrest, hexpanded.right⟩

/-- What a place needs are the tokens of a file. -/
theorem fileAt? (hr : env.resolver.RespectsPaths) (h : AgreesAll env s s')
    {a : Ahead} {p : String} {tokens : List Token}
    (hf : s'.fileAt? env a = some (p, tokens)) :
    env.resolver.tokens? p = some tokens := by
  have hexpanded := (withCache h TokenCache.mirrorsOn_empty).expandAt
    hr.trustworthy a true (IncludeChain.trustedIn_true _)
  exact hexpanded.right (p, tokens) (List.mem_of_head? hf) trivial

/-- The cursor moves on. -/
theorem advance (h : AgreesAll env s s')
    (hrest : SameEnd env (.start env {} text path) s)
    (hr' : Reader.advance? env steps s' = some r') :
    Follows env text path r' := by
  unfold Reader.advance? at hr'
  cases hu' : s'.advance? with
  | none =>
      rw [hu'] at hr'
      cases hr'
      exact .closing h ((hrest s).2 (endsIn_of_stop (h.symm.advance?_none hu')))
  | some u' =>
      obtain ⟨u, hu, hagrees⟩ := h.symm.advance? hu'
      rw [hu'] at hr'
      dsimp only at hr'
      split at hr'
      · rename_i heof
        cases hr'
        rw [hagrees.cursor.symm] at heof
        exact .closing hagrees.symm ((hrest u).2 (endsIn_of_eof hu heof))
      · rename_i heof
        rw [Bool.not_eq_true, ← hagrees.cursor] at heof
        obtain ⟨v', hv', rfl⟩ := Option.map_eq_some_iff.1 hr'
        obtain ⟨v, hv, hagrees'⟩ := hagrees.takeToken hv'
        have hplaces : v'.places = v.places := by
          rw [hagrees'.differs]
          rfl
        rw [← hagrees.cursor] at hv
        refine .reading hagrees'.symm fun w => (hrest w).trans ?_
        rw [hplaces, expandAll_places]
        exact sameEnd_of_token hu heof hv w

/-- One step of a parse over a cache that mirrors the resolver. -/
theorem step (hr : env.resolver.RespectsPaths)
    (h : Follows env text path r)
    (hc : c.MirrorsOn env.resolver fun _ => True)
    (hstep : r.step? env steps c = some (c', r')) :
    Follows env text path r' ∧ c'.MirrorsOn env.resolver fun _ => True := by
  cases h with
  | @reading s s' places h hrest =>
      cases places with
      | nil =>
          obtain ⟨r, hadvance, he⟩ := Option.map_eq_some_iff.1 hstep
          cases he
          exact ⟨advance h hrest hadvance, hc⟩
      | cons a places =>
          unfold Reader.step? at hstep
          dsimp only at hstep
          split at hstep
          · cases hstep
            exact expand hr h hc hrest
          · rename_i p tokens hfile
            split at hstep
            · cases hstep
              exact expand hr h hc hrest
            · cases hstep
              exact ⟨.storing h hrest (fileAt? hr h hfile), hc⟩
  | storing h hrest hfile =>
      cases hstep
      exact expand hr h (hc.insert hfile) hrest
  | closing h hend =>
      cases hstep
      exact ⟨.closed h hend, (mirrorsOn_elim hc _).1⟩
  | closed h hend => cases hstep

/-- A parse that is closed has the result it has alone. -/
theorem parsesTo (h : Follows env text path r) {file : ParsedFile}
    (hfile : r.file? env = some file) : ParsesTo env text path file := by
  cases h with
  | reading h hrest => cases hfile
  | storing h hrest hf => cases hfile
  | closing h hend => cases hfile
  | @closed s s' h hend =>
      obtain ⟨steps, hrun⟩ := hend
      have hfinish : AgreesAll env (s.finish env) (s'.finish env) :=
        h.map fun u c q => State.finish_over env u c q
      refine ⟨steps, _, congrArg (Option.map _) hrun, ?_⟩
      refine .trans ?_ (Option.some.inj hfile)
      rw [hfinish.differs]
      rfl

/-- The cursor moves on where a run does. -/
theorem advance_of_run {m : Nat} (h : AgreesAll env s s')
    (hm : s.run env m = some u) :
    ∃ next, Reader.advance? env m s' = some next := by
  cases m with
  | zero => cases hm
  | succ m =>
      unfold State.run at hm
      unfold Reader.advance?
      cases hv : s.advance? with
      | none =>
          rw [h.advance?_none hv]
          exact ⟨_, rfl⟩
      | some v =>
          obtain ⟨v', hv', hagrees⟩ := h.advance? hv
          rw [hv] at hm
          rw [hv']
          dsimp only at hm ⊢
          rw [hagrees.cursor]
          split at hm
          · rename_i heof
            rw [if_pos heof]
            exact ⟨_, rfl⟩
          rename_i heof
          rw [if_neg heof]
          cases hw : v.step env m v.source.cursor.current with
          | none =>
              rw [hw] at hm
              cases hm
          | some w =>
              rw [step_eq] at hw
              obtain ⟨x, hx, -⟩ := Option.map_eq_some_iff.1 hw
              obtain ⟨x', hx', -⟩ := hagrees.takeToken
                (takeToken_more (Nat.le_succ m) hx)
              rw [hx']
              exact ⟨_, rfl⟩

/-- While the parse of the text alone comes to an end, the parse can go on or
has come to that end. -/
theorem progress (h : Follows env text path r) {file : ParsedFile}
    (hfile : ParsesTo env text path file) (c : TokenCache) :
    r.file? env = some file
      ∨ ∃ steps next, r.step? env steps c = some next := by
  obtain ⟨n, alone, halone, rfl⟩ := hfile
  obtain ⟨w, hw, rfl⟩ := Option.map_eq_some_iff.1 halone
  cases h with
  | @reading s s' places h hrest =>
      right
      cases places with
      | nil =>
          obtain ⟨m, hm⟩ := (hrest w).1 ⟨n, hw⟩
          obtain ⟨next, hnext⟩ := advance_of_run h hm
          exact ⟨m, (c, next), congrArg (Option.map _) hnext⟩
      | cons a places =>
          unfold Reader.step?
          dsimp only
          split
          · exact ⟨0, _, rfl⟩
          · split <;> exact ⟨0, _, rfl⟩
  | storing h hrest hf => exact Or.inr ⟨0, _, rfl⟩
  | closing h hend => exact Or.inr ⟨0, _, rfl⟩
  | @closed s s' h hend =>
      left
      obtain ⟨m, hm⟩ := hend
      have hfinish : AgreesAll env (s.finish env) (s'.finish env) :=
        h.map fun u c q => State.finish_over env u c q
      obtain rfl := run_unique hw hm
      show some (Result.ofState env.options (s'.finish env)).file = _
      rw [hfinish.differs]
      rfl

end Follows

-- ============================================================== histories

namespace Sharing

/-- One of the parses does a step. -/
def Moves (env : Environment) (w w' : Sharing) : Prop :=
  ∃ steps i, w.move? env steps i = some w'

variable {jobs : List (String × Option String)} {w w' : Sharing}

/-- The cache mirrors the resolver, and each parse follows that of its text
alone. -/
structure Kept (env : Environment) (jobs : List (String × Option String))
    (w : Sharing) : Prop where
  cache : w.cache.MirrorsOn env.resolver fun _ => True
  length : w.readers.length = jobs.length
  readers : ∀ (i : Nat) (text : String) (path : Option String) (r : Reader),
    jobs[i]? = some (text, path) → w.readers[i]? = some r →
    Follows env text path r

theorem Kept.start (hc : c.MirrorsOn env.resolver fun _ => True) :
    Kept env jobs (.start c jobs) := by
  refine ⟨hc, List.length_map _, fun i text path r hjob hr => ?_⟩
  have hget : (jobs.map fun job => Reader.start job.1 job.2)[i]?
      = some r := hr
  rw [List.getElem?_map, hjob] at hget
  rw [← Option.some.inj hget]
  exact .start ..

theorem Kept.move (hr : env.resolver.RespectsPaths) (h : Kept env jobs w)
    (hm : Moves env w w') : Kept env jobs w' := by
  obtain ⟨steps, i, hmove⟩ := hm
  obtain ⟨r, hget, hdone⟩ := Option.bind_eq_some_iff.1 hmove
  obtain ⟨⟨c', r'⟩, hstep, he⟩ := Option.bind_eq_some_iff.1 hdone
  cases he
  -- the parse that moves is that of one of the jobs
  have hi : i < jobs.length := by
    rw [← h.length]
    exact (List.getElem?_eq_some_iff.1 hget).1
  have hmoved := (h.readers i jobs[i].1 jobs[i].2 r
    (List.getElem?_eq_getElem hi) hget).step hr h.cache hstep
  refine ⟨hmoved.2, ?_, fun j text path x hjob hx => ?_⟩
  · dsimp only
    rw [List.length_set]
    exact h.length
  · dsimp only at hx
    by_cases hj : i = j
    · subst hj
      rw [List.getElem?_set_self (by rw [h.length]; exact hi)] at hx
      rw [List.getElem?_eq_getElem hi] at hjob
      rw [← Option.some.inj hx]
      rw [Option.some.inj hjob] at hmoved
      exact hmoved.1
    · rw [List.getElem?_set_ne hj] at hx
      exact h.readers j text path x hjob hx

/-- Whatever the parses have done, in whatever order. -/
theorem Kept.moves (hr : env.resolver.RespectsPaths) (h : Kept env jobs w)
    (hm : Relation.ReflTransGen (Moves env) w w') : Kept env jobs w' := by
  induction hm with
  | refl => exact h
  | tail _ hm ih => exact ih.move hr hm

end Sharing

end Parse

-- ============================================================ transparency

open Parse in
/-- A cache that mirrors a resolver changes no result: a parse comes to what it
comes to over an empty cache, the cache mirrors the resolver after it, and has
nothing for the path of the text. So parses that share such a cache, however
their steps lie between one another, come each to what it comes to alone: none
comes to anything else, and none is stuck that ends alone. -/
theorem cache_transparent {env : Environment} {cache : TokenCache}
    (hr : env.resolver.RespectsPaths) (hc : cache.Mirrors env.resolver) :
    (∀ steps text path,
      (parse? steps env cache text path).map (·.file)
          = (parse? steps env {} text path).map (·.file)
        ∧ ∀ r, parse? steps env cache text path = some r →
          r.cache.Mirrors env.resolver
            ∧ ∀ p, path = some p → r.cache.get? p = none)
    ∧ ∀ (jobs : List (String × Option String)) (w : Sharing),
      Relation.ReflTransGen (Sharing.Moves env) (.start cache jobs) w →
      w.cache.Mirrors env.resolver
        ∧ ∀ (i : Nat) (text : String) (path : Option String),
          jobs[i]? = some (text, path) →
          ∃ r, w.readers[i]? = some r
            ∧ (∀ file, r.file? env = some file →
              ParsesTo env text path file)
            ∧ ∀ file, ParsesTo env text path file →
              r.file? env = some file
                ∨ ∃ steps w', w.move? env steps i = some w' := by
  rw [TokenCache.mirrors_iff] at hc
  have hempty : TokenCache.MirrorsOn {} env.resolver fun _ => True :=
    TokenCache.mirrorsOn_empty
  refine ⟨fun steps text path => ⟨?_, fun r h => ?_⟩, fun jobs w hm => ?_⟩
  · exact parse_same hr hc hempty
  · have hcache := parse_mirrors hc h
    exact ⟨TokenCache.mirrors_iff.2 hcache.1, hcache.2⟩
  · have hstart : Sharing.Kept env jobs (.start cache jobs) := .start hc
    have hkept := hstart.moves hr hm
    refine ⟨TokenCache.mirrors_iff.2 hkept.cache, fun i text path hjob => ?_⟩
    have hi : i < w.readers.length := by
      rw [hkept.length]
      exact (List.getElem?_eq_some_iff.1 hjob).1
    have hget := List.getElem?_eq_getElem hi
    have hfollows := hkept.readers i text path _ hjob hget
    refine ⟨_, hget, fun file => hfollows.parsesTo, fun file hfile => ?_⟩
    rcases hfollows.progress hfile w.cache with hend | ⟨steps, next, hnext⟩
    · exact Or.inl hend
    · right
      refine ⟨steps, ⟨next.1, w.readers.set i next.2⟩, ?_⟩
      unfold Sharing.move?
      rw [hget]
      show (Reader.step? env steps w.cache w.readers[i]).bind _ = _
      rw [hnext]
      rfl

/-- One file that another includes, cached: three items, as without a
cache. -/
theorem cache_transparent_inclusion :
    ∃ (env : Environment) (cache : TokenCache),
      env.resolver.RespectsPaths ∧ cache.Mirrors env.resolver
        ∧ (parse? 40 env cache "\x7ba.i\x7d\n" none).map (·.file.items.size) = some 3
        ∧ (parse? 40 env cache "\x7ba.i\x7d\n" none).map (·.file)
          = (parse? 40 env {} "\x7ba.i\x7d\n" none).map (·.file) := by
  let resolver : Resolver :=
    { resolve := fun name _ => some name
      load := fun p =>
        if Path.same p "a.i" then .ok "RUN a.\n" else .error .missing }
  have hr : resolver.RespectsPaths := by
    intro p q hpq
    have hparts : Path.parts p = Path.parts q := eq_of_beq hpq
    have hsame : Path.same p "a.i" = Path.same q "a.i" := by
      unfold Path.same
      rw [hparts]
    show (if Path.same p "a.i" then _ else _) = _
    rw [hsame]
  have hc : TokenCache.Mirrors ⟨[("a.i", tokenize "RUN a.\n")]⟩ resolver := by
    intro e he
    rw [List.mem_singleton.1 he]
    rfl
  let env : Environment := { resolver }
  have henv : env.resolver.RespectsPaths := hr
  exact ⟨env, _, hr, hc, by decide +kernel,
    ((cache_transparent henv hc).1 40 "\x7ba.i\x7d\n" none).1⟩

/-- A resolver that gives two texts to two spellings of one path: the cache
has the tokens of its file, and the parse comes to something else. -/
theorem spellings_tell_cache :
    ∃ (env : Environment) (cache : TokenCache),
      cache.Mirrors env.resolver
        ∧ (parse? 40 env cache "\x7ba/b.i\x7d\n" none).map (·.file)
          ≠ (parse? 40 env {} "\x7ba/b.i\x7d\n" none).map (·.file) := by
  let resolver := Resolver.ofFiles
    [("a/b.i", some "RUN a.\n"), ("a//b.i", some "RUN b.\n")] false
  refine ⟨{ resolver }, ⟨[("a//b.i", tokenize "RUN b.\n")]⟩, ?_, fun he => ?_⟩
  · intro e he
    rw [List.mem_singleton.1 he]
    rfl
  · have hnames := congrArg
      (Option.map fun file : ParsedFile => file.items.toList.map (·.name)) he
    rw [Option.map_map, Option.map_map] at hnames
    revert hnames
    decide +kernel

end AblOutline
