/-
Caches that say what the resolver says. A cache mirrors a resolver on some
paths where each of them that has an entry has the tokens of its file. Asking
such a cache for a path is asking the resolver (`tokensAt_eq`), and what a
parse puts into it, or takes out of it, keeps it such a cache.

Paths are equal part by part, so a resolver that gives two texts to two
spellings of one path cannot be mirrored: it must respect paths.
-/
import AblOutline.Parse.Run

namespace AblOutline

open Parse

/-- Equal paths have the same text. -/
def Resolver.RespectsPaths (r : Resolver) : Prop :=
  ∀ p q, Path.same p q = true → r.load p = r.load q

/-- The tokens of the file at a path, if it can be read. -/
def Resolver.tokens? (r : Resolver) (path : String) : Option (List Token) :=
  match r.load path with
  | .error _ => Option.none
  | .ok text => some (tokenize text)

/-- Every path that has an entry has the tokens of its file. -/
def TokenCache.Mirrors (c : TokenCache) (r : Resolver) : Prop :=
  ∀ e ∈ c.entries, r.tokens? e.1 = some e.2

/-- The same of the paths in `trusted`; other entries may say anything. -/
def TokenCache.MirrorsOn (c : TokenCache) (r : Resolver)
    (trusted : String → Prop) : Prop :=
  ∀ e ∈ c.entries, trusted e.1 → r.tokens? e.1 = some e.2

/-- The paths that are trusted are told by their parts, and those that are not
can be read. -/
structure Trustworthy (r : Resolver) (trusted : String → Prop) : Prop where
  paths : r.RespectsPaths
  same : ∀ p q, Path.same p q = true → (trusted p ↔ trusted q)
  readable : ∀ p, ¬ trusted p → (r.tokens? p).isSome = true

theorem Resolver.RespectsPaths.trustworthy {r : Resolver}
    (h : r.RespectsPaths) : Trustworthy r fun _ => True :=
  ⟨h, fun _ _ _ => Iff.rfl, fun _ hp => absurd trivial hp⟩

namespace TokenCache

variable {c : TokenCache} {r : Resolver} {trusted : String → Prop}
  {path : String} {tokens : List Token}

theorem mirrors_iff : c.Mirrors r ↔ c.MirrorsOn r fun _ => True :=
  forall₂_congr fun _ _ => true_imp_iff.symm

theorem mirrorsOn_empty : MirrorsOn {} r trusted := nofun

theorem MirrorsOn.get? (h : c.MirrorsOn r trusted)
    (ht : Trustworthy r trusted) (hp : trusted path)
    (hget : c.get? path = some tokens) : r.tokens? path = some tokens := by
  obtain ⟨⟨p, kept⟩, hfind, rfl⟩ := Option.map_eq_some_iff.1 hget
  have hsame := List.find?_some hfind
  dsimp only at hsame
  have hentry := h _ (List.mem_of_find?_eq_some hfind)
    ((ht.same p path hsame).2 hp)
  unfold Resolver.tokens? at hentry ⊢
  rw [← ht.paths p path hsame]
  exact hentry

theorem MirrorsOn.insert (h : c.MirrorsOn r trusted)
    (hp : r.tokens? path = some tokens) :
    (c.insert path tokens).MirrorsOn r trusted := by
  unfold TokenCache.insert
  split
  · exact h
  · intro e he
    rcases List.mem_append.1 he with he | he
    · exact h e he
    · rw [List.mem_singleton.1 he]
      exact fun _ => hp

/-- What holds of a cache still holds of it with the tokens of one more
file. -/
def Survives (r : Resolver) (P : TokenCache → Prop) : Prop :=
  ∀ c path tokens, P c → c.get? path = none → r.tokens? path = some tokens →
    P (c.insert path tokens)

theorem survives_mirrorsOn : Survives r fun c => c.MirrorsOn r trusted :=
  fun _ _ _ h _ hp => h.insert hp

theorem MirrorsOn.invalidate (h : c.MirrorsOn r trusted) (path : String) :
    (c.invalidate path).MirrorsOn r trusted :=
  fun e he => h e (List.mem_filter.1 he).1

end TokenCache

namespace Parse

variable {r : Resolver} {trusted : String → Prop} {source : Source}
  {path : String}

/-- The tokens at a trusted path are those of its file. -/
theorem tokensAt_eq (ht : Trustworthy r trusted)
    (h : source.cache.MirrorsOn r trusted) (hp : trusted path) :
    (State.tokensAt r source path).1 = r.tokens? path := by
  unfold State.tokensAt
  cases hget : source.cache.get? path with
  | some tokens => exact (h.get? ht hp hget).symm
  | none =>
      dsimp only
      unfold Resolver.tokens?
      cases r.load path <;> rfl

/-- At any other path there are some tokens. -/
theorem tokensAt_isSome (h : (r.tokens? path).isSome = true) :
    (State.tokensAt r source path).1.isSome = true := by
  unfold State.tokensAt
  split
  · rfl
  · unfold Resolver.tokens? at h
    dsimp only
    split
    · rename_i he
      rw [he] at h
      cases h
    · rfl

/-- Only the cache and the questions change. -/
theorem tokensAt_source (h : source.cache.MirrorsOn r trusted)
    (path : String) :
    ∃ c q, (State.tokensAt r source path).2
        = { source with cache := c, asked := q }
      ∧ c.MirrorsOn r trusted := by
  unfold State.tokensAt
  split
  · exact ⟨source.cache, source.asked, rfl, h⟩
  · dsimp only
    split
    · exact ⟨source.cache, _, rfl, h⟩
    · rename_i text hload
      refine ⟨_, _, rfl, h.insert ?_⟩
      unfold Resolver.tokens?
      rw [hload]

/-- The cache gets at most the tokens of one file. -/
theorem openInclude_cache {P : TokenCache → Prop}
    (hP : TokenCache.Survives r P) (h : P source.cache) (name : String)
    (owner : Nat) : P (State.openInclude r source name owner).2.2.cache := by
  unfold State.openInclude
  dsimp only
  split
  · exact h
  rename_i path _
  unfold State.tokensAt
  dsimp only
  split
  · exact h
  rename_i hnone
  split
  · exact h
  · rename_i text hload
    refine hP _ path _ h hnone ?_
    unfold Resolver.tokens?
    rw [hload]

/-- An included file, over a cache that mirrors the resolver: its tokens are
those of the file if its path is trusted, and there are some if it is not. -/
theorem openInclude_eq (ht : Trustworthy r trusted)
    (h : source.cache.MirrorsOn r trusted) (name : String) (owner : Nat) :
    ∃ c q tokens, State.openInclude r source name owner
        = (r.resolve name (source.chain.path? owner), tokens,
          { source with cache := c, asked := q })
      ∧ c.MirrorsOn r trusted
      ∧ match r.resolve name (source.chain.path? owner) with
        | none => tokens = none
        | some path => (trusted path → tokens = r.tokens? path)
          ∧ (¬ trusted path → tokens.isSome = true) := by
  unfold State.openInclude
  dsimp only
  cases hpath : r.resolve name (source.chain.path? owner) with
  | none => exact ⟨source.cache, _, none, rfl, h, rfl⟩
  | some path =>
      let question := Query.resolve name (source.chain.path? owner)
      let asking : Source :=
        { source with asked := question :: source.asked }
      have hasking : asking.cache.MirrorsOn r trusted := h
      obtain ⟨c, q, hsource, hc⟩ := tokensAt_source hasking path
      have htrusted : trusted path →
          (State.tokensAt r asking path).1 = r.tokens? path :=
        tokensAt_eq ht hasking
      have hany : ¬ trusted path →
          (State.tokensAt r asking path).1.isSome = true :=
        fun hp => tokensAt_isSome (ht.readable path hp)
      have hopen : (some path, (State.tokensAt r asking path).1,
            (State.tokensAt r asking path).2)
          = (some path, (State.tokensAt r asking path).1,
            { source with cache := c, asked := q }) := by
        rw [hsource]
      exact ⟨c, q, _, hopen, hc, htrusted, hany⟩

end Parse

end AblOutline
