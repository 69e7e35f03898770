/-
Expansion keeps the tokens of every file. At the end of a parse the stream has
those of the file being read, and of each file that was included, as they were
read: once each and in their order, but for references that gave way to their
values. The tokens of an included file, with those of all that it includes,
stand together right after its directive (`parse_expansion`).

`Intact` is what a parse keeps. The directive of a file that was put in counts
as expanded, and edits come after all that is expanded, so no edit parts a
file from its directive; and what an edit puts in belongs where the token
belongs that it is made at.
-/
import AblOutline.Proofs.Cached.Run
import AblOutline.Proofs.Expansion.Pieces
import AblOutline.Proofs.Lines

namespace AblOutline

-- ================================================================= supplies

/-- What a parse over a cache reads at a path: what the cache has for it, or
the tokens of a file that is loaded there. -/
def Supplies (r : Resolver) (c : TokenCache) (path : String)
    (tokens : List Token) : Prop :=
  c.get? path = some tokens
    ∨ c.get? path = none
      ∧ ∃ p, Path.same p path = true ∧ r.tokens? p = some tokens

/-- The second cache is the first with files that were loaded. -/
structure Supplied (r : Resolver) (c c' : TokenCache) : Prop where
  grows : c.Grows c'
  supplies : ∀ path tokens, c'.get? path = some tokens →
    Supplies r c path tokens

theorem Supplied.refl (r : Resolver) (c : TokenCache) : Supplied r c c :=
  ⟨fun _ _ hget => hget, fun _ _ hget => Or.inl hget⟩

/-- What is kept for one path is found for that path only. -/
theorem TokenCache.get?_insert_cases {c : TokenCache} {path p : String}
    {tokens kept : List Token} (hnone : c.get? path = none)
    (h : (c.insert path tokens).get? p = some kept) :
    c.get? p = some kept
      ∨ c.get? p = none ∧ Path.same path p = true ∧ kept = tokens := by
  cases hget : c.get? p with
  | some ts =>
      rw [c.grows_insert path tokens p ts hget] at h
      exact Or.inl h
  | none =>
      have hfind : c.entries.find? (fun e => Path.same e.1 p) = none :=
        Option.map_eq_none_iff.1 hget
      unfold TokenCache.insert at h
      rw [hnone] at h
      unfold TokenCache.get? at h
      dsimp only at h
      rw [List.find?_append, hfind, Option.none_or, List.find?_singleton] at h
      split at h
      · rename_i hsame
        exact Or.inr ⟨rfl, hsame, (Option.some.inj h).symm⟩
      · cases h

theorem survives_supplied (r : Resolver) (c : TokenCache) :
    TokenCache.Survives r (Supplied r c) := by
  intro c' path tokens h hnone htokens
  refine ⟨fun p ts hget => c'.grows_insert path tokens p ts
    (h.grows p ts hget), fun p kept hget => ?_⟩
  rcases TokenCache.get?_insert_cases hnone hget with
    hold | ⟨hnew, hsame, rfl⟩
  · exact h.supplies p kept hold
  · refine Or.inr ⟨?_, path, hsame, htokens⟩
    cases hfirst : c.get? p with
    | none => rfl
    | some ts =>
        rw [h.grows p ts hfirst] at hnew
        cases hnew

namespace Parse

-- ================================================================ invariant

/-- The middle one of three lists has the tokens of file `n` and of all that
it brings in; the first one ends with its directive. -/
structure Trails (c : IncludeChain) (n : Nat) (f : ChainFile)
    (before block after : List Token) : Prop where
  directive : ∃ t, before.getLast? = some t ∧ t.kind = .inclusion
    ∧ f.trigger = some t ∧ f.parent = some t.owner
  enclosed : Enclosed (fun v => n ∈ c.lineage v.owner) before block after

/-- The tokens of an included file are those of its text, and follow its
directive, which is expanded. -/
structure FileIntact (s : Source) (n : Nat) (f : ChainFile) : Prop where
  text : ∃ path own, f.path = some path ∧ s.cache.get? path = some own
    ∧ Rewritten (ownedBy n own) (s.cursor.tokens.filter (·.owner == n))
  place : ∃ before block after, s.cursor.tokens = before ++ block ++ after
    ∧ before.length ≤ s.cursor.passed.length + s.expanded
    ∧ Trails s.chain n f before block after

/-- The tokens of all files are those of their texts. -/
structure Intact (text : String) (s : Source) : Prop where
  beyond : s.cursor.beyond.isEof = true
  known : ∀ t ∈ s.cursor.tokens, t.owner < s.chain.size
  own : Rewritten (tokenize text) (s.cursor.tokens.filter (·.owner == 0))
  files : ∀ n f, 0 < n → s.chain.get? n = some f → FileIntact s n f

-- ==================================================================== edits

section Edits

variable {text : String} {s s' : Source} {n : Nat} {f : ChainFile} {t : Token}
  {pre mid rest : List Token}

theorem FileIntact.aside (h : FileIntact s n f)
    (htokens : s'.cursor.tokens = s.cursor.tokens)
    (hlimit : s.cursor.passed.length + s.expanded
      ≤ s'.cursor.passed.length + s'.expanded)
    (hchain : s'.chain = s.chain) (hcache : s.cache.Grows s'.cache) :
    FileIntact s' n f := by
  obtain ⟨⟨path, own, hpath, hown, hrewritten⟩,
    before, block, after, hsplit, hle, htrails⟩ := h
  constructor
  · exact ⟨path, own, hpath, hcache path own hown, htokens ▸ hrewritten⟩
  · exact ⟨before, block, after, htokens.trans hsplit, hle.trans hlimit,
      hchain ▸ htrails⟩

/-- A token that is not expanded yet gives way to tokens that belong where it
belongs. -/
theorem FileIntact.giveWay (h : FileIntact s n f)
    (htokens : s.cursor.tokens = pre ++ t :: rest)
    (htokens' : s'.cursor.tokens = pre ++ mid ++ rest)
    (hfresh : s.cursor.passed.length + s.expanded ≤ pre.length)
    (hlimit : s.cursor.passed.length + s.expanded
      ≤ s'.cursor.passed.length + s'.expanded)
    (hcache : s'.cache = s.cache)
    (hlineage : ∀ v ∈ s.cursor.tokens,
      s'.chain.lineage v.owner = s.chain.lineage v.owner)
    (hmid : ∀ v ∈ mid,
      n ∈ s'.chain.lineage v.owner ↔ n ∈ s'.chain.lineage t.owner)
    (hown : ∀ base,
      Rewritten base (s.cursor.tokens.filter (·.owner == n)) →
      Rewritten base (s'.cursor.tokens.filter (·.owner == n))) :
    FileIntact s' n f := by
  obtain ⟨⟨path, own, hpath, hget, hrewritten⟩,
    before, block, after, hsplit, hle, hdirective, henclosed⟩ := h
  refine ⟨⟨path, own, hpath, hcache.symm ▸ hget, hown _ hrewritten⟩, ?_⟩
  have hwithin := henclosed.congr
    (q := fun v => n ∈ s'.chain.lineage v.owner) fun v hv => by
      rw [hlineage v (hsplit ▸ hv)]
  obtain ⟨block', after', hsplit', henclosed'⟩ :=
    hwithin.giveWay (hsplit.symm.trans htokens) (hle.trans hfresh) hmid
  exact ⟨before, block', after', htokens'.trans hsplit', hle.trans hlimit,
    hdirective, henclosed'⟩

theorem Intact.value {front ts : List Token} (h : Intact text s)
    (ht : s.cursor.ahead = front ++ t :: rest)
    (hfresh : s.expanded ≤ front.length) (hk : t.kind = .reference)
    (hts : ∀ v ∈ ts, StandsFor t v) :
    Intact text { s with cursor :=
      { s.cursor with ahead := front ++ ts ++ rest } } := by
  have htokens : s.cursor.tokens
      = (s.cursor.passed.reverse ++ front) ++ t :: rest := by
    unfold Cursor.tokens
    rw [ht, List.append_assoc]
  have htokens' : Cursor.tokens { s.cursor with ahead := front ++ ts ++ rest }
      = (s.cursor.passed.reverse ++ front) ++ ts ++ rest := by
    unfold Cursor.tokens
    dsimp only
    rw [List.append_assoc, List.append_assoc, List.append_assoc]
  have hown : ∀ n base,
      Rewritten base (s.cursor.tokens.filter (·.owner == n)) →
      Rewritten base (Cursor.tokens { s.cursor with
        ahead := front ++ ts ++ rest } |>.filter (·.owner == n)) := by
    intro n base hbase
    rw [htokens] at hbase
    rw [htokens']
    exact hbase.giveWay_filter hk hts
  refine ⟨h.beyond, fun v hv => ?_, hown 0 _ h.own, fun n f hn hf =>
    (h.files n f hn hf).giveWay htokens htokens' ?_ (Nat.le_refl _) rfl
      (fun _ _ => rfl) (fun v hv => ?_) (hown n)⟩
  · rw [htokens'] at hv
    have hold : ∀ v ∈ (s.cursor.passed.reverse ++ front) ++ t :: rest,
        v.owner < s.chain.size := fun v hv => h.known v (htokens ▸ hv)
    rcases List.mem_append.1 hv with hv | hv
    · rcases List.mem_append.1 hv with hv | hv
      · exact hold v (List.mem_append_left _ hv)
      · rw [(hts v hv).owner]
        exact hold t (List.mem_append_right _ List.mem_cons_self)
    · exact hold v (List.mem_append_right _ (List.mem_cons_of_mem _ hv))
  · rw [List.length_append, List.length_reverse]
    exact Nat.add_le_add_left hfresh _
  · rw [(hts v hv).owner]

section File

variable {ts : List Token} {path : String} {own : List Token}

/-- A file that is put in is there as it was read. -/
theorem FileIntact.opened
    (hold : ∀ v ∈ pre ++ t :: rest, v.owner < s.chain.size)
    (htokens' : s'.cursor.tokens
      = pre ++ t :: ownedBy s.chain.size own ++ rest)
    (hlimit : pre.length + 1 ≤ s'.cursor.passed.length + s'.expanded)
    (hchain : s'.chain = s.chain.push f) (hk : t.kind = .inclusion)
    (hf : BringsIn s.chain t path f) (hget : s'.cache.get? path = some own) :
    FileIntact s' s.chain.size f := by
  constructor
  · refine ⟨path, own, hf.path, hget, ?_⟩
    rw [htokens', filter_owner_new (fun v hv => (mem_ownedBy v hv).1) hold]
    exact .refl _
  · refine ⟨pre ++ [t], ownedBy s.chain.size own, rest, ?_, ?_, ?_, ?_, ?_⟩
    · rw [htokens', ← List.singleton_append, ← List.append_assoc]
    · rw [List.length_append]
      exact hlimit
    · exact ⟨t, List.getLast?_concat, hk, hf.trigger, hf.parent⟩
    · intro v hv
      rw [(mem_ownedBy v hv).1]
      exact IncludeChain.mem_lineage_self _ _
    · intro v hv hmem
      rw [List.append_assoc, List.singleton_append] at hv
      rw [hchain, IncludeChain.lineage_push (hold v hv)] at hmem
      exact Nat.not_le_of_lt (hold v hv) (IncludeChain.le_of_mem_lineage hmem)

/-- A file that is put in parts no other from its directive. -/
theorem FileIntact.beside (h : FileIntact s n f) {g : ChainFile}
    (hold : ∀ v ∈ s.cursor.tokens, v.owner < s.chain.size)
    (htokens : s.cursor.tokens = pre ++ t :: rest)
    (htokens' : s'.cursor.tokens = pre ++ t :: ts ++ rest)
    (hts : ∀ v ∈ ts, v.owner = s.chain.size)
    (hfresh : s.cursor.passed.length + s.expanded ≤ pre.length)
    (hlimit : s.cursor.passed.length + s.expanded
      ≤ s'.cursor.passed.length + s'.expanded)
    (hchain : s'.chain = s.chain.push g) (hg : g.parent = some t.owner)
    (hcache : s'.cache = s.cache) (hn : n < s.chain.size) :
    FileIntact s' n f := by
  have ht : t.owner < s.chain.size := hold t (by
    rw [htokens]
    exact List.mem_append_right _ List.mem_cons_self)
  refine h.giveWay htokens htokens' hfresh hlimit hcache
    (fun v hv => ?_) (fun v hv => ?_) fun base hbase => ?_
  · rw [hchain, IncludeChain.lineage_push (hold v hv)]
  · rcases List.mem_cons.1 hv with rfl | hv
    · exact Iff.rfl
    · -- the new file is within what its directive is within
      rw [hchain, hts v hv, IncludeChain.lineage_push_size hg ht,
        IncludeChain.lineage_push ht]
      exact ⟨fun hmem => (List.mem_cons.1 hmem).resolve_left
        (Nat.ne_of_lt hn), List.mem_cons_of_mem _⟩
  · rw [htokens', filter_owner_old hts (Nat.ne_of_lt hn), ← htokens]
    exact hbase

theorem Intact.file {a : Ahead} (h : Intact text s)
    (hfresh : s.expanded ≤ a.skipped)
    (hk : (s.cursor.peekAhead a).kind = .inclusion)
    (hf : BringsIn s.chain (s.cursor.peekAhead a) path f)
    (hget : s.cache.get? path = some own) :
    Intact text { s with
      chain := s.chain.push f
      cursor := s.cursor.insert a.next (ownedBy s.chain.size own)
      expanded := max s.expanded a.distance } := by
  obtain ⟨pre, rest, hlength, htokens, htokens'⟩ := tokens_insert h.beyond
    (isEof_of_kind hk nofun) (ownedBy s.chain.size own)
  generalize s.cursor.peekAhead a = t at hk hf htokens htokens'
  have hts : ∀ v ∈ ownedBy s.chain.size own, v.owner = s.chain.size :=
    fun v hv => (mem_ownedBy v hv).1
  have hold : ∀ v ∈ pre ++ t :: rest, v.owner < s.chain.size :=
    fun v hv => h.known v (htokens ▸ hv)
  have ht : t.owner < s.chain.size :=
    hold t (List.mem_append_right _ List.mem_cons_self)
  have hsize : (s.chain.push f).size = s.chain.size + 1 := Array.size_push _
  refine ⟨h.beyond, fun v hv => ?_, ?_, fun n g hn hg => ?_⟩
  · show v.owner < (s.chain.push f).size
    rw [hsize]
    rw [htokens'] at hv
    rcases List.mem_append.1 hv with hv | hv
    · rcases List.mem_append.1 hv with hv | hv
      · exact Nat.lt_succ_of_lt (hold v (List.mem_append_left _ hv))
      · rcases List.mem_cons.1 hv with rfl | hv
        · exact Nat.lt_succ_of_lt ht
        · exact Nat.lt_succ_of_le (Nat.le_of_eq (hts v hv))
    · exact Nat.lt_succ_of_lt (hold v
        (List.mem_append_right _ (List.mem_cons_of_mem _ hv)))
  · show Rewritten _ ((s.cursor.insert _ _).tokens.filter _)
    rw [htokens', filter_owner_old hts (Nat.ne_of_lt (Nat.zero_lt_of_lt ht)),
      ← htokens]
    exact h.own
  · change (s.chain.push f).get? n = some g at hg
    have hbound : n < (s.chain.push f).size :=
      (Array.getElem?_eq_some_iff.1 hg).1
    rcases Nat.lt_succ_iff_lt_or_eq.1 (hsize ▸ hbound) with hlt | rfl
    · rw [get?_push_of_lt hlt] at hg
      refine (h.files n g hn hg).beside h.known htokens htokens' hts ?_ ?_ rfl
        hf.parent rfl hlt
      · rw [hlength]
        exact Nat.add_le_add_left hfresh _
      · exact Nat.add_le_add_left (Nat.le_max_left _ _) _
    · obtain rfl : f = g :=
        Option.some.inj (Array.getElem?_push_size.symm.trans hg)
      refine .opened hold htokens' ?_ rfl hk hf hget
      rw [hlength, Nat.add_assoc]
      exact Nat.add_le_add_left (Nat.le_max_right _ _) _

end File

theorem Intact.edit (h : Intact text s) (he : Edit s s') : Intact text s' := by
  cases he with
  | aside hcursor hchain hexpanded hcache =>
      have htokens := congrArg Cursor.tokens hcursor
      refine ⟨hcursor ▸ h.beyond, ?_, htokens ▸ h.own, fun n f hn hf => ?_⟩
      · rw [htokens, hchain]
        exact h.known
      · rw [hchain] at hf
        refine (h.files n f hn hf).aside htokens ?_ hchain hcache
        rw [hcursor]
        exact Nat.add_le_add_left hexpanded _
  | value ht hfresh hk hts => exact h.value ht hfresh hk hts
  | file a hfresh hk hf hget => exact h.file hfresh hk hf hget

theorem Intact.edits (h : Intact text s) (he : Edits s s') :
    Intact text s' := by
  induction he with
  | refl => exact h
  | tail _ he ih => exact ih.edit he

end Edits

-- ===================================================================== runs

section Runs

variable {env : Environment} {steps : Nat} {text : String} {s s' : State}

/-- The cursor moves on over what is expanded. -/
theorem Intact.advance (h : Intact text s.source) (hs : s.advance? = some s') :
    Intact text s'.source := by
  obtain ⟨cursor, hcursor, rfl⟩ := Option.map_eq_some_iff.1 hs
  have htokens := Cursor.tokens_advance? hcursor
  obtain ⟨hbeyond, hpassed⟩ : cursor.beyond = s.source.cursor.beyond
      ∧ cursor.passed.length = s.source.cursor.passed.length + 1 := by
    unfold Cursor.advance? at hcursor
    split at hcursor
    · cases hcursor
    · cases hcursor
      exact ⟨rfl, List.length_cons⟩
  refine ⟨hbeyond ▸ h.beyond, htokens ▸ h.known, htokens ▸ h.own,
    fun n f hn hf => (h.files n f hn hf).aside htokens ?_ rfl
      fun _ _ hget => hget⟩
  show _ ≤ cursor.passed.length + (s.source.expanded - 1)
  omega

theorem Intact.run (h : Intact text s.source)
    (hrun : s.run env steps = some s') : Intact text s'.source := by
  induction steps generalizing s with
  | zero => cases hrun
  | succ steps ih =>
      unfold State.run at hrun
      split at hrun
      · cases hrun
        exact h
      rename_i u hu
      have hadvanced := h.advance hu
      dsimp only at hrun
      split at hrun
      · cases hrun
        exact hadvanced
      split at hrun
      · cases hrun
      rename_i v hv
      exact ih (hadvanced.edits (step_edits hv)) hrun

theorem Intact.opened (cache : TokenCache) (text : String)
    (path : Option String) :
    Intact text (State.opened cache text path).source := by
  have howner : ∀ t ∈ tokenize text, t.owner = 0 :=
    fun t ht => ((tokenize_lines text).1 t ht).1
  have htokens : (State.opened cache text path).source.cursor.tokens
      = tokenize text := Cursor.tokens_ofTokens _
  refine ⟨(Within.opened cache text path).beyond, fun t ht => ?_, ?_,
    fun n f hn hf => ?_⟩
  · rw [howner t (htokens ▸ ht)]
    exact Nat.zero_lt_one
  · rw [htokens, List.filter_eq_self.2 fun t ht =>
      beq_iff_eq.2 (howner t ht)]
    exact .refl _
  · have hlt : n < 1 := (Array.getElem?_eq_some_iff.1 hf).1
    exact absurd hn (Nat.not_lt_of_le (Nat.le_of_lt_succ hlt))

theorem Intact.start (env : Environment) (cache : TokenCache) (text : String)
    (path : Option String) :
    Intact text (State.start env cache text path).source :=
  (Intact.opened cache text path).edits
    ((expandAt_edits env _ .nearest true).trans
      (expandAt_edits env _ Ahead.nearest.next true))

end Runs

end Parse

open Parse

-- =================================================================== parses

/-- The tokens are those of `text` and of the files that a chain has besides,
but for references that gave way to their values; those of an included file
and of all that it brings in follow its directive. -/
structure ExpandedFrom (r : Resolver) (cache : TokenCache) (text : String)
    (chain : IncludeChain) (tokens : List Token) : Prop where
  known : ∀ t ∈ tokens, t.owner < chain.size
  own : Rewritten (tokenize text) (tokens.filter (·.owner == 0))
  files : ∀ n f, 0 < n → chain.get? n = some f →
    ∃ path own, f.path = some path ∧ Supplies r cache path own
      ∧ Rewritten (ownedBy n own) (tokens.filter (·.owner == n))
  blocks : ∀ n f, 0 < n → chain.get? n = some f →
    ∃ before block after, tokens = before ++ block ++ after
      ∧ Trails chain n f before block after

/-- Expansion loses, moves and changes no token. -/
theorem parse_expansion {steps : Nat} {env : Environment} {cache : TokenCache}
    {text : String} {path : Option String} {r : Result}
    (hkeep : env.options.keepExpandedText = true)
    (h : parse? steps env cache text path = some r) :
    ∃ tokens, r.file.tokens = some tokens
      ∧ ExpandedFrom env.resolver cache text r.file.chain tokens := by
  obtain ⟨s, hrun, rfl⟩ := Option.map_eq_some_iff.1 h
  have hintact := (Intact.start env cache text path).run hrun
  have hcache := run_cache (survives_supplied env.resolver cache)
    (start_cache (survives_supplied env.resolver cache)
      (.refl env.resolver cache) text path) hrun
  have hsource : (s.finish env).source = s.source := (finish_leaves env s).1
  have htokens : (Result.ofState env.options (s.finish env)).file.tokens
      = some s.source.cursor.tokens := by
    show (if env.options.keepExpandedText then
      some (s.finish env).source.cursor.tokens else none) = _
    rw [if_pos hkeep, hsource]
  have hchain : (Result.ofState env.options (s.finish env)).file.chain
      = s.source.chain := congrArg (·.chain) hsource
  refine ⟨_, htokens, ?_⟩
  rw [hchain]
  refine ⟨hintact.known, hintact.own, fun n f hn hf => ?_, fun n f hn hf => ?_⟩
  · obtain ⟨path, own, hpath, hget, hrewritten⟩ := (hintact.files n f hn hf).text
    exact ⟨path, own, hpath, hcache.supplies path own hget, hrewritten⟩
  · obtain ⟨before, block, after, hsplit, -, htrails⟩ :=
      (hintact.files n f hn hf).place
    exact ⟨before, block, after, hsplit, htrails⟩

/-- A file that includes another one, and refers to a name and an
argument. -/
def nestedFiles : Resolver :=
  .ofFiles [("a.i", some "\x7b&x\x7d \x7bb.i\x7dy.\n"),
    ("b.i", some "\x7b1\x7dz ")] false

def nestedText : String :=
  "&GLOBAL-DEFINE x u v\n\x7ba.i\x7d\x7b&x\x7d\x7b&w\x7d k."

/-- A value of three tokens in two files, and nothing in the place of a name
and of an argument that have no value. -/
theorem parse_expansion_nested :
    ∃ r, parse? 60
        { options := { keepExpandedText := true }, resolver := nestedFiles } {}
        nestedText none = some r
      ∧ (r.file.tokens.map fun ts => ts.map fun t => (t.owner, t.text))
        = some [(0, "&GLOBAL-DEFINE"), (0, " "), (0, "x"), (0, " "), (0, "u"),
          (0, " "), (0, "v"), (0, "\n"), (0, "\x7ba.i\x7d"), (1, "u"), (1, " "),
          (1, "v"), (1, " "), (1, "\x7bb.i\x7d"), (2, "z"), (2, " "), (1, "y"),
          (1, "."), (1, "\n"), (0, "u"), (0, " "), (0, "v"), (0, " "), (0, "k"),
          (0, "."), (0, "")]
      ∧ ∃ tokens, r.file.tokens = some tokens
        ∧ ExpandedFrom nestedFiles {} nestedText r.file.chain tokens := by
  have hrun : ((parse? 60
      { options := { keepExpandedText := true }, resolver := nestedFiles } {}
      nestedText none).map fun r => r.file.tokens.map fun ts =>
        ts.map fun t => (t.owner, t.text))
      = some (some [(0, "&GLOBAL-DEFINE"), (0, " "), (0, "x"), (0, " "),
        (0, "u"), (0, " "), (0, "v"), (0, "\n"), (0, "\x7ba.i\x7d"), (1, "u"),
        (1, " "), (1, "v"), (1, " "), (1, "\x7bb.i\x7d"), (2, "z"), (2, " "),
        (1, "y"), (1, "."), (1, "\n"), (0, "u"), (0, " "), (0, "v"), (0, " "),
        (0, "k"), (0, "."), (0, "")]) := by
    decide +kernel
  obtain ⟨r, hr, htokens⟩ := Option.map_eq_some_iff.1 hrun
  exact ⟨r, hr, htokens, parse_expansion rfl hr⟩

end AblOutline
