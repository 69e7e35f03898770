/-
One parse over two caches. Two states agree when they differ in nothing but
their caches, which both mirror the resolver, and in what was asked of it
(`Agrees`). What is done to both keeps them so (`Agrees.map`), and so does
the expansion of an include directive, since both caches have the tokens of
its file or get them. So two parses of a text over such caches come to the
same result (`parse_agrees`).

Some paths may have entries that say something else, as long as the first
parse includes no file at one of them (`IncludeChain.TrustedIn`).
-/
import AblOutline.Proofs.Cached.Mirror
import AblOutline.Proofs.Cached.Unseen
import AblOutline.Proofs.Steps
import AblOutline.Proofs.Stream

namespace AblOutline

/-- All files that a directive includes have trusted paths. -/
def IncludeChain.TrustedIn (chain : IncludeChain) (trusted : String → Prop) :
    Prop :=
  ∀ i f p, chain.get? i = some f → f.trigger.isSome = true →
    f.path = some p → trusted p

theorem IncludeChain.trustedIn_true (chain : IncludeChain) :
    chain.TrustedIn fun _ => True := fun _ _ _ _ _ _ => trivial

theorem IncludeChain.TrustedIn.of_grows {c c' : IncludeChain}
    {trusted : String → Prop} (h : c'.TrustedIn trusted) (hg : c.Grows c') :
    c.TrustedIn trusted := fun i f p hf => h i f p (hg i f hf)

namespace Parse

open State

-- ============================================================ commutation

section Over

variable (env : Environment) (s : State) (t : Token) (c : TokenCache)
  (q : List Query) (steps : Nat)

theorem takeToken_over :
    (s.over c q).takeToken env steps t
      = (s.takeToken env steps t).map (·.over c q) := by
  have hskip : (s.over c q).source.skip = s.source.skip := rfl
  unfold takeToken
  dsimp only
  rw [hskip, observe_over]
  split
  · rfl
  · dsimp only
    rw [look_over, Option.map_map, Option.map_map]
    rfl

/-- The file that `t` includes is put in after it, or noted as missing. -/
def State.insertFile (s : State) (a : Ahead) (t : Token)
    (call : Preprocess.IncludeCall) (path : Option String) :
    Option (List Token) → State
  | none => s.addItem call.file t (.inclusion path none)
  | some tokens =>
    let owner := s.source.chain.size
    let file : ChainFile :=
      { name := call.file, path, trigger := some t, parent := some t.owner
        rootLine := s.rootLine t, arguments := call }
    let source := { s.source with chain := s.source.chain.push file }
    let s := State.addItem { s with source } call.file t
      (.inclusion path (some owner))
    let own := (tokens.filter (!·.isEof)).map (·.withOwner owner)
    let cursor := s.source.cursor.insert a.next own
    { s with source := { s.source with cursor } }

theorem insertFile_over (a : Ahead) (call : Preprocess.IncludeCall)
    (path : Option String) (tokens : Option (List Token)) :
    (s.over c q).insertFile a t call path tokens
      = (s.insertFile a t call path tokens).over c q := by
  cases tokens <;> rfl

/-- The file that was put in is the last of the chain. -/
theorem insertFile_get? (a : Ahead) (call : Preprocess.IncludeCall)
    (path : Option String) (tokens : List Token) :
    ∃ f, (s.insertFile a t call path (some tokens)).source.chain.get?
        s.source.chain.size = some f
      ∧ f.trigger.isSome = true ∧ f.path = path :=
  ⟨_, Array.getElem?_push_size, rfl, rfl⟩

/-- An include directive is looked up, and then its file is put in. -/
theorem includeAt_eq (a : Ahead) :
    s.includeAt env a t
      = if env.options.maxIncludeDepth
            < (s.source.chain.lineage t.owner).length then s
        else
          match Preprocess.IncludeCall.parse? t.text with
          | none => s
          | some call =>
            State.insertFile { s with source := (openInclude env.resolver
                s.source call.file t.owner).2.2 } a t call
              (openInclude env.resolver s.source call.file t.owner).1
              (openInclude env.resolver s.source call.file t.owner).2.1 := by
  unfold includeAt
  split
  · rfl
  cases Preprocess.IncludeCall.parse? t.text with
  | none => rfl
  | some call =>
      dsimp only
      generalize openInclude env.resolver s.source call.file t.owner = opened
      obtain ⟨path, tokens, source⟩ := opened
      cases tokens <;> rfl

end Over

-- ================================================================= agreeing

/-- The states differ in nothing but their caches, which mirror the resolver,
and in what was asked of it. -/
structure Agrees (r : Resolver) (trusted : String → Prop) (s s' : State) :
    Prop where
  differs : s' = s.over s'.source.cache s'.source.asked
  left : s.source.cache.MirrorsOn r trusted
  right : s'.source.cache.MirrorsOn r trusted

namespace Agrees

variable {env : Environment} {r : Resolver} {trusted : String → Prop}
  {s s' v : State} {t : Token} {a : Ahead} {steps : Nat}

theorem of_over (s : State) {c c' : TokenCache} {q q' : List Query}
    (hc : c.MirrorsOn r trusted) (hc' : c'.MirrorsOn r trusted) :
    Agrees r trusted (s.over c q) (s.over c' q') := ⟨rfl, hc, hc'⟩

theorem cursor (h : Agrees r trusted s s') :
    s'.source.cursor = s.source.cursor := by
  rw [h.differs]
  rfl

/-- What does not look at the cache is done to both. -/
theorem map {f : State → State}
    (hf : ∀ u c q, f (u.over c q) = (f u).over c q)
    (h : Agrees r trusted s s') : Agrees r trusted (f s) (f s') := by
  have hs : f s = (f s).over s.source.cache s.source.asked :=
    hf s s.source.cache s.source.asked
  rw [h.differs, hf, hs]
  exact of_over (f s) h.left h.right

theorem mapOption {f : State → Option State}
    (hf : ∀ u c q, f (u.over c q) = (f u).map (·.over c q))
    (h : Agrees r trusted s s') (hv : f s = some v) :
    ∃ v', f s' = some v' ∧ Agrees r trusted v v' := by
  have hs : f s = (f s).map (·.over s.source.cache s.source.asked) :=
    hf s s.source.cache s.source.asked
  rw [hv] at hs
  have hself : v = v.over s.source.cache s.source.asked := Option.some.inj hs
  refine ⟨v.over s'.source.cache s'.source.asked, ?_, ?_⟩
  · rw [h.differs, hf, hv]
    rfl
  · rw [hself]
    exact of_over v h.left h.right

-- ============================================================== inclusion

theorem includeAt (ht : Trustworthy env.resolver trusted)
    (h : Agrees env.resolver trusted s s')
    (hchain : (s.includeAt env a t).source.chain.TrustedIn trusted) :
    Agrees env.resolver trusted (s.includeAt env a t)
      (s'.includeAt env a t) := by
  obtain ⟨hover, hleft, hright⟩ := h
  generalize s'.source.cache = c₀, s'.source.asked = q₀ at hover hright
  subst hover
  have hsame : (s.over c₀ q₀).source.chain = s.source.chain := rfl
  rw [includeAt_eq] at hchain ⊢
  rw [includeAt_eq, hsame]
  split
  · exact ⟨rfl, hleft, hright⟩
  rename_i hdepth
  rw [if_neg hdepth] at hchain
  cases hcall : Preprocess.IncludeCall.parse? t.text with
  | none => exact ⟨rfl, hleft, hright⟩
  | some call =>
      rw [hcall] at hchain
      dsimp only at hchain ⊢
      have hright' : (s.over c₀ q₀).source.cache.MirrorsOn env.resolver
          trusted := hright
      obtain ⟨c, q, tokens, hopen, hc, htokens⟩ :=
        openInclude_eq ht hleft call.file t.owner
      obtain ⟨c', q', tokens', hopen', hc', htokens'⟩ :=
        openInclude_eq ht hright' call.file t.owner
      rw [hopen] at hchain ⊢
      rw [hopen', hsame]
      rw [hsame] at htokens'
      dsimp only at hchain ⊢
      generalize env.resolver.resolve call.file
        (s.source.chain.path? t.owner) = path at *
      obtain rfl : tokens' = tokens := by
        cases path with
        | none => exact htokens'.trans htokens.symm
        | some path =>
            have htrusted : trusted path := by
              by_contra hp
              -- the file would be in the chain
              obtain ⟨ts, rfl⟩ := Option.isSome_iff_exists.1 (htokens.2 hp)
              obtain ⟨f, hf, htrigger, hpath⟩ := insertFile_get?
                (s.over c q) t a call (some path) ts
              exact hp (hchain _ f path hf htrigger hpath)
            exact (htokens'.1 htrusted).trans (htokens.1 htrusted).symm
      show Agrees env.resolver trusted
        ((s.over c q).insertFile a t call path tokens')
        ((s.over c' q').insertFile a t call path tokens')
      rw [insertFile_over, insertFile_over]
      exact of_over _ hc hc'

theorem expandAt (ht : Trustworthy env.resolver trusted)
    (h : Agrees env.resolver trusted s s') (a : Ahead) (includes : Bool)
    (hchain : (s.expandAt env a includes).source.chain.TrustedIn trusted) :
    Agrees env.resolver trusted (s.expandAt env a includes)
      (s'.expandAt env a includes) := by
  have hexpanded : s'.isExpanded a = s.isExpanded a := by
    rw [h.differs]
    rfl
  have hsettle := h.map (f := (·.settle env.options.platform a
    env.options.maxExpansionDepth)) fun u c q => settle_over u c q _ a _
  have hmark : ∀ {u u' : State}, Agrees env.resolver trusted u u' →
      Agrees env.resolver trusted (u.markExpanded a) (u'.markExpanded a) :=
    fun h => h.map (f := (·.markExpanded a)) fun _ _ _ => rfl
  unfold State.expandAt at hchain ⊢
  rw [hexpanded]
  split
  · exact h
  rename_i hnot
  rw [if_neg hnot] at hchain
  dsimp only at hchain hsettle ⊢
  split
  · rename_i hincludes
    rw [if_pos hincludes] at hchain
    refine hmark ?_
    unfold State.expandInclude at hchain ⊢
    rw [hsettle.cursor]
    dsimp only at hchain ⊢
    split
    · rename_i hk
      rw [if_pos hk] at hchain
      exact hsettle.includeAt ht hchain
    · exact hsettle
  · exact hsettle

theorem expandNext (ht : Trustworthy env.resolver trusted)
    (h : Agrees env.resolver trusted s s')
    (hchain : (s.expandNext env).source.chain.TrustedIn trusted) :
    Agrees env.resolver trusted (s.expandNext env) (s'.expandNext env) := by
  have hskip : s'.source.skip = s.source.skip := by
    rw [h.differs]
    rfl
  have hbranch : s'.inFalseBranch = s.inFalseBranch := by
    rw [h.differs]
    rfl
  unfold State.expandNext at hchain ⊢
  rw [hskip, hbranch]
  split
  · rename_i hlive
    rw [if_pos hlive] at hchain
    exact h.expandAt ht .nearest true hchain
  · exact h

-- =================================================================== runs

theorem takeToken (h : Agrees r trusted s s')
    (hv : s.takeToken env steps t = some v) :
    ∃ v', s'.takeToken env steps t = some v' ∧ Agrees r trusted v v' :=
  h.mapOption (f := (·.takeToken env steps t))
    (fun u c q => takeToken_over env u t c q steps) hv

theorem step (ht : Trustworthy env.resolver trusted)
    (h : Agrees env.resolver trusted s s')
    (hv : s.step env steps t = some v)
    (hchain : v.source.chain.TrustedIn trusted) :
    ∃ v', s'.step env steps t = some v'
      ∧ Agrees env.resolver trusted v v' := by
  rw [step_eq] at hv ⊢
  obtain ⟨u, hu, rfl⟩ := Option.map_eq_some_iff.1 hv
  obtain ⟨u', hu', hagrees⟩ := h.takeToken hu
  refine ⟨u'.expandNext env, ?_, hagrees.expandNext ht hchain⟩
  rw [hu']
  rfl

theorem advance? (h : Agrees r trusted s s') (hv : s.advance? = some v) :
    ∃ v', s'.advance? = some v' ∧ Agrees r trusted v v' :=
  h.mapOption (f := (·.advance?)) (fun u c q => advance?_over u c q) hv

theorem advance?_none (h : Agrees r trusted s s') (hv : s.advance? = none) :
    s'.advance? = none := by
  rw [h.differs, advance?_over, hv]
  rfl

/-- A run over another cache that mirrors the resolver. -/
theorem run (ht : Trustworthy env.resolver trusted)
    (h : Agrees env.resolver trusted s s')
    (hv : s.run env steps = some v)
    (hchain : v.source.chain.TrustedIn trusted) :
    ∃ v', s'.run env steps = some v' ∧ Agrees env.resolver trusted v v' := by
  induction steps generalizing s s' with
  | zero => cases hv
  | succ steps ih =>
      unfold State.run at hv ⊢
      cases hu : s.advance? with
      | none =>
          rw [hu] at hv
          rw [h.advance?_none hu]
          cases hv
          exact ⟨s', rfl, h⟩
      | some u =>
          obtain ⟨u', hu', hagrees⟩ := h.advance? hu
          rw [hu] at hv
          rw [hu']
          dsimp only at hv ⊢
          rw [hagrees.cursor]
          split at hv
          · rename_i heof
            rw [if_pos heof]
            cases hv
            exact ⟨u', rfl, hagrees⟩
          rename_i heof
          rw [if_neg heof]
          cases hw : u.step env steps u.source.cursor.current with
          | none =>
              rw [hw] at hv
              cases hv
          | some w =>
              rw [hw] at hv
              dsimp only at hv
              obtain ⟨w', hw', hagrees'⟩ := hagrees.step ht hw
                (hchain.of_grows (run_grows hv))
              rw [hw']
              exact ih hagrees' hv

end Agrees

-- ================================================================= caches

section Caches

variable {env : Environment} {P : TokenCache → Prop} {s s' : State}
  {t : Token} {steps : Nat}

/-- What does not look at the cache leaves it as it is. -/
theorem cache_of_over {f : State → State}
    (hf : ∀ u c q, f (u.over c q) = (f u).over c q) (s : State) :
    (f s).source.cache = s.source.cache :=
  congrArg (·.source.cache) (hf s s.source.cache s.source.asked)

theorem includeAt_cache (hP : TokenCache.Survives env.resolver P)
    (h : P s.source.cache) (a : Ahead) :
    P (s.includeAt env a t).source.cache := by
  have hinsert : ∀ (u : State) (call : Preprocess.IncludeCall)
      (path : Option String) (tokens : Option (List Token)),
      (u.insertFile a t call path tokens).source.cache = u.source.cache := by
    intro u call path tokens
    cases tokens <;> rfl
  rw [includeAt_eq]
  split
  · exact h
  split
  · exact h
  rename_i call _
  rw [hinsert]
  exact openInclude_cache hP h call.file t.owner

theorem expandAt_cache (hP : TokenCache.Survives env.resolver P)
    (h : P s.source.cache) (a : Ahead) (includes : Bool) :
    P (s.expandAt env a includes).source.cache := by
  have hsettle := cache_of_over (f := (·.settle env.options.platform a
    env.options.maxExpansionDepth)) (fun u c q => settle_over u c q _ a _) s
  have hsettled : P (s.settle env.options.platform a
      env.options.maxExpansionDepth).source.cache := hsettle ▸ h
  unfold State.expandAt
  split
  · exact h
  dsimp only
  split
  · show P (State.expandInclude env _ a).source.cache
    unfold State.expandInclude
    dsimp only
    split
    · exact includeAt_cache hP hsettled a
    · exact hsettled
  · exact hsettled

theorem start_cache (hP : TokenCache.Survives env.resolver P) {c : TokenCache}
    (h : P c) (text : String) (path : Option String) :
    P (State.start env c text path).source.cache :=
  expandAt_cache hP (s := (State.opened c text path).expandAt env .nearest true)
    (expandAt_cache hP (s := State.opened c text path) h .nearest true)
    Ahead.nearest.next true

theorem step_cache (hP : TokenCache.Survives env.resolver P)
    (h : P s.source.cache) (hs : s.step env steps t = some s') :
    P s'.source.cache := by
  rw [step_eq] at hs
  obtain ⟨u, hu, rfl⟩ := Option.map_eq_some_iff.1 hs
  have htaken := takeToken_over env s t s.source.cache s.source.asked steps
  rw [over_self, hu] at htaken
  have hcache : u.source.cache = s.source.cache :=
    congrArg (·.source.cache) (Option.some.inj htaken)
  have hu : P u.source.cache := hcache ▸ h
  unfold State.expandNext
  split
  · exact expandAt_cache hP hu .nearest true
  · exact hu

/-- What survives the reading of files holds of the cache at the end. -/
theorem run_cache (hP : TokenCache.Survives env.resolver P)
    (h : P s.source.cache) (hs : s.run env steps = some s') :
    P s'.source.cache := by
  induction steps generalizing s with
  | zero => cases hs
  | succ steps ih =>
      unfold State.run at hs
      split at hs
      · cases hs
        exact h
      rename_i u hu
      have hadvanced : P u.source.cache := by
        obtain ⟨cursor, -, rfl⟩ := Option.map_eq_some_iff.1 hu
        exact h
      dsimp only at hs
      split at hs
      · cases hs
        exact hadvanced
      split at hs
      · cases hs
      rename_i v hv
      exact ih (step_cache hP hadvanced hv) hs

end Caches

-- ================================================================= parses

section Parses

variable {env : Environment} {steps : Nat} {trusted : String → Prop}
  {c c' : TokenCache} {text : String} {path : Option String}

/-- Parses over two caches begin alike. -/
theorem start_agrees (ht : Trustworthy env.resolver trusted)
    (hc : c.MirrorsOn env.resolver trusted)
    (hc' : c'.MirrorsOn env.resolver trusted)
    (hchain : (State.start env c text path).source.chain.TrustedIn trusted) :
    Agrees env.resolver trusted (.start env c text path)
      (.start env c' text path) := by
  have hopened : Agrees env.resolver trusted (.opened c text path)
      (.opened c' text path) := ⟨rfl, hc, hc'⟩
  unfold State.start at hchain ⊢
  have hfirst := hopened.expandAt ht .nearest true
    (hchain.of_grows
      (expandAt_edits env _ Ahead.nearest.next true).grows)
  exact hfirst.expandAt ht Ahead.nearest.next true hchain

/-- The file being read stays the first of the chain. -/
theorem start_grows (env : Environment) (c : TokenCache) (text : String)
    (path : Option String) :
    (State.opened c text path).source.chain.Grows
      (State.start env c text path).source.chain :=
  Edits.grows ((expandAt_edits env _ .nearest true).trans
    (expandAt_edits env _ Ahead.nearest.next true))

theorem run_path? {s : State}
    (h : (State.start env c text path).run env steps = some s) :
    s.source.chain.path? 0 = path := by
  have hopened : (State.opened c text path).source.chain.get? 0
      = some { name := State.rootName path, path, trigger := none
               parent := none, rootLine := 0 } := rfl
  have hroot := run_grows h 0 _ (start_grows env c text path 0 _ hopened)
  rw [IncludeChain.path?, hroot]
  rfl

/-- What a cache keeps when the path of a file leaves it. -/
theorem mirrorsOn_elim (h : c.MirrorsOn env.resolver trusted)
    (path : Option String) :
    (path.elim c c.invalidate).MirrorsOn env.resolver trusted
      ∧ ∀ p, path = some p → (path.elim c c.invalidate).get? p = none := by
  cases path with
  | none => exact ⟨h, nofun⟩
  | some path =>
      refine ⟨h.invalidate path, fun p hp => ?_⟩
      rw [← Option.some.inj hp]
      exact TokenCache.get?_invalidate c path

/-- What a parse keeps mirrors the resolver again, and is nothing for the path
of the text. -/
theorem parse_mirrors {r : Result}
    (hc : c.MirrorsOn env.resolver trusted)
    (h : parse? steps env c text path = some r) :
    r.cache.MirrorsOn env.resolver trusted
      ∧ ∀ p, path = some p → r.cache.get? p = none := by
  obtain ⟨s, hrun, rfl⟩ := Option.map_eq_some_iff.1 h
  have hfinal : s.source.cache.MirrorsOn env.resolver trusted :=
    run_cache TokenCache.survives_mirrorsOn
      (start_cache TokenCache.survives_mirrorsOn hc text path) hrun
  have hfinish : (s.finish env).source.cache = s.source.cache :=
    cache_of_over (f := (·.finish env)) (fun u c q => finish_over env u c q) s
  have hpath : (s.finish env).source.chain.path? 0 = path := by
    rw [(finish_leaves env s).1]
    exact run_path? hrun
  have hcache := mirrorsOn_elim hfinal path
  rw [← hfinish] at hcache
  rw [← hpath] at hcache ⊢
  exact hcache

/-- Over caches that mirror the resolver, a text has one result. -/
theorem parse_agrees {r : Result} (ht : Trustworthy env.resolver trusted)
    (hc : c.MirrorsOn env.resolver trusted)
    (hc' : c'.MirrorsOn env.resolver trusted)
    (h : parse? steps env c text path = some r)
    (hchain : r.file.chain.TrustedIn trusted) :
    ∃ r', parse? steps env c' text path = some r' ∧ r'.file = r.file := by
  obtain ⟨s, hrun, rfl⟩ := Option.map_eq_some_iff.1 h
  have hfinal : s.source.chain.TrustedIn trusted := by
    rw [← (finish_leaves env s).1]
    exact hchain
  obtain ⟨s', hrun', hagrees⟩ := (start_agrees ht hc hc'
    (hfinal.of_grows (run_grows hrun))).run ht hrun hfinal
  have hfinish : Agrees env.resolver trusted (s.finish env) (s'.finish env) :=
    hagrees.map fun u c q => finish_over env u c q
  refine ⟨_, congrArg (Option.map _) hrun', ?_⟩
  show (Result.ofState env.options (s'.finish env)).file = _
  rw [hfinish.differs]
  rfl

/-- Where all paths are trusted, whether there is a result is one as well. -/
theorem parse_same (hr : env.resolver.RespectsPaths)
    (hc : c.MirrorsOn env.resolver fun _ => True)
    (hc' : c'.MirrorsOn env.resolver fun _ => True) :
    (parse? steps env c text path).map (·.file)
      = (parse? steps env c' text path).map (·.file) := by
  have ht := hr.trustworthy
  cases h : parse? steps env c text path with
  | some r =>
      obtain ⟨r', hr', hfile⟩ := parse_agrees ht hc hc' h
        (IncludeChain.trustedIn_true _)
      rw [hr']
      exact congrArg some hfile.symm
  | none =>
      cases h' : parse? steps env c' text path with
      | none => rfl
      | some r =>
          obtain ⟨r', hr', -⟩ := parse_agrees ht hc' hc h'
            (IncludeChain.trustedIn_true _)
          rw [h] at hr'
          cases hr'

end Parses

end Parse

end AblOutline
