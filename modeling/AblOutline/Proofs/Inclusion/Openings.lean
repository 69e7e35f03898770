/-
The files that a parse brings in, one directive at a time. A file is put in
behind its directive, which is then past all that is still to be expanded:

    [ .. {a.i} x {b.i} .. ]      {a.i} is expanded, {b.i} is not
             `settled'

So an opening, an include directive that is carried out, stands behind all that
were carried out before it (`Logged`), and none is carried out again. The new
file is a child of the file that its directive stands in, and counts for the
same line of the file being read (`IsTree.push`).
-/
import AblOutline.Proofs.Inclusion.Reading

namespace AblOutline

-- =================================================================== trees

/-- The files of a chain are a tree of bounded height: the file being read at
its root, and every other file a child of the one that its directive stands
in. A file counts for the line of the directive, in the file being read, that
all of it was brought in by. -/
structure IncludeTree (limit : Nat) (c : IncludeChain) : Prop where
  root : ∃ f, c.get? 0 = some f ∧ f.parent = none ∧ f.trigger = none
  trigger : ∀ n f, 0 < n → c.get? n = some f →
    ∃ t, f.trigger = some t ∧ t.kind = .inclusion ∧ f.parent = some t.owner
      ∧ t.owner < n
  /-- The files around a file are found by going from parent to parent. -/
  lineage : ∀ n f, c.get? n = some f →
    c.lineage n = n :: f.parent.elim [] c.lineage
  line : ∀ n f, 0 < n → c.get? n = some f →
    ∃ inner o g t, c.lineage n = inner ++ [o, 0] ∧ c.get? o = some g
      ∧ g.parent = some 0 ∧ g.trigger = some t ∧ f.rootLine = t.start.line
  height : ∀ n, n < c.size → (c.lineage n).getLast? = some 0
    ∧ (c.lineage n).length ≤ limit + 1

namespace IncludeTree

variable {limit : Nat} {c : IncludeChain} {f : ChainFile} {t : Token}

/-- The file being read alone. -/
theorem singleton (limit : Nat) (hparent : f.parent = none)
    (htrigger : f.trigger = none) : IncludeTree limit ⟨#[f]⟩ := by
  have hget : IncludeChain.get? ⟨#[f]⟩ 0 = some f := rfl
  have honly : ∀ {n g}, IncludeChain.get? ⟨#[f]⟩ n = some g →
      n = 0 ∧ g = f := by
    intro n g hg
    have hlt : n < 1 := (Array.getElem?_eq_some_iff.1 hg).1
    obtain rfl : n = 0 := Nat.lt_one_iff.1 hlt
    exact ⟨rfl, Option.some.inj (hg.symm.trans hget)⟩
  have hlineage : IncludeChain.lineage ⟨#[f]⟩ 0 = [0] := by
    refine IncludeChain.lineage_of_root ?_
    unfold IncludeChain.parent?
    rw [hget, Option.bind_some, hparent]
    rfl
  refine ⟨⟨f, hget, hparent, htrigger⟩, fun n g hn hg => ?_, fun n g hg => ?_,
    fun n g hn hg => ?_, fun n hn => ?_⟩
  · exact absurd (honly hg).1 (Nat.ne_of_gt hn)
  · obtain ⟨rfl, rfl⟩ := honly hg
    rw [hlineage, hparent]
    rfl
  · exact absurd (honly hg).1 (Nat.ne_of_gt hn)
  · obtain rfl : n = 0 := Nat.lt_one_iff.1 hn
    rw [hlineage]
    exact ⟨rfl, Nat.le_add_left 1 limit⟩

/-- One more file, brought in where that is not too deep. -/
theorem push (h : IncludeTree limit c) (hk : t.kind = .inclusion)
    (ht : t.owner < c.size) (hdepth : (c.lineage t.owner).length ≤ limit)
    (htrigger : f.trigger = some t) (hparent : f.parent = some t.owner)
    (hline : f.rootLine = c.rootLine t) : IncludeTree limit (c.push f) := by
  have hsize : (c.push f).size = c.size + 1 := Array.size_push _
  have hnew : (c.push f).lineage c.size = c.size :: c.lineage t.owner :=
    IncludeChain.lineage_push_size hparent ht
  have hlast : (c.push f).get? c.size = some f := Array.getElem?_push_size
  have hcases : ∀ {n g}, (c.push f).get? n = some g →
      n < c.size ∧ c.get? n = some g ∨ n = c.size ∧ g = f := by
    intro n g hg
    have hlt : n < (c.push f).size := (Array.getElem?_eq_some_iff.1 hg).1
    rw [hsize] at hlt
    rcases Nat.lt_succ_iff_lt_or_eq.1 hlt with hlt | rfl
    · exact Or.inl ⟨hlt, (Parse.get?_push_of_lt hlt) ▸ hg⟩
    · exact Or.inr ⟨rfl, Option.some.inj (hg.symm.trans hlast)⟩
  have hold : ∀ {n g}, c.get? n = some g → (c.push f).get? n = some g :=
    fun {n g} hg => (Parse.get?_push_of_lt
      (Array.getElem?_eq_some_iff.1 hg).1).trans hg
  constructor
  case root =>
    obtain ⟨g, hg, hrest⟩ := h.root
    exact ⟨g, hold hg, hrest⟩
  case trigger =>
    intro n g hn hg
    rcases hcases hg with ⟨-, hg⟩ | ⟨rfl, rfl⟩
    · exact h.trigger n g hn hg
    · exact ⟨t, htrigger, hk, hparent, ht⟩
  case lineage =>
    intro n g hg
    rcases hcases hg with ⟨hlt, hg⟩ | ⟨rfl, rfl⟩
    · rw [IncludeChain.lineage_push hlt, h.lineage n g hg]
      cases hp : g.parent with
      | none => rfl
      | some parent =>
          have hpos : 0 < n := by
            refine Nat.pos_of_ne_zero fun hzero => ?_
            obtain ⟨g', hg', hroot, -⟩ := h.root
            rw [hzero, hg', Option.some.injEq] at hg
            rw [← hg, hroot] at hp
            cases hp
          obtain ⟨u, -, -, hu, hbefore⟩ := h.trigger n g hpos hg
          cases hp.symm.trans hu
          exact congrArg (n :: ·)
            (IncludeChain.lineage_push (Nat.lt_trans hbefore hlt)).symm
    · rw [hnew, hparent]
      exact congrArg (c.size :: ·) (IncludeChain.lineage_push ht).symm
  case line =>
    intro n g hn hg
    rcases hcases hg with ⟨hlt, hg⟩ | ⟨rfl, rfl⟩
    · obtain ⟨inner, o, g', u, hl, hg', hrest⟩ := h.line n g hn hg
      exact ⟨inner, o, g', u, (IncludeChain.lineage_push hlt).trans hl,
        hold hg', hrest⟩
    · rw [hnew, hline]
      unfold IncludeChain.rootLine
      rcases Nat.eq_zero_or_pos t.owner with hzero | hpos
      · -- the directive stands in the file being read
        obtain ⟨g', hg', hroot, -⟩ := h.root
        have hlineage : c.lineage 0 = [0] := by
          rw [h.lineage 0 g' hg', hroot]
          rfl
        rw [hzero, hlineage, if_pos rfl]
        exact ⟨[], c.size, _, t, rfl, hlast, hzero ▸ hparent, htrigger, rfl⟩
      · have hgo : c.get? t.owner = some c.files[t.owner] :=
          Array.getElem?_eq_getElem ht
        obtain ⟨inner, o, g', u, hl, hg', hfirst, hu, hstart⟩ :=
          h.line t.owner _ hpos hgo
        rw [if_neg (Nat.ne_of_gt hpos), hgo, hl]
        exact ⟨c.size :: inner, o, g', u, rfl, hold hg', hfirst, hu, hstart⟩
  case height =>
    intro n hn
    rw [hsize] at hn
    rcases Nat.lt_succ_iff_lt_or_eq.1 hn with hlt | rfl
    · rw [IncludeChain.lineage_push hlt]
      exact h.height n hlt
    · obtain ⟨hzero, -⟩ := h.height t.owner ht
      rw [hnew, List.getLast?_cons, hzero]
      exact ⟨rfl, Nat.succ_le_succ hdepth⟩

end IncludeTree

namespace Parse

-- ================================================================ openings

/-- An include directive that was carried out: its place in the stream, and the
number of the file that it brought in, if it brought in any. -/
structure Opening where
  place : Nat
  file : Option Nat
deriving DecidableEq, Repr

/-- The include directive that is carried out when the token at `a` is
expanded. -/
def State.opening? (env : Environment) (a : Ahead) (s : State) :
    Option Opening :=
  if s.isExpanded a then none
  else
    let s := s.settle env.options.platform a env.options.maxExpansionDepth
    let t := s.source.cursor.peekAhead a
    let size := s.source.chain.size
    if t.kind = .inclusion then
      some {
        place := s.source.cursor.passed.length + a.skipped
        file := if size < (s.includeAt env a t).source.chain.size then some size
          else none }
    else none

/-- The number of tokens that are expanded for good, passed ones among them. -/
def Source.settled (s : Source) : Nat := s.cursor.passed.length + s.expanded

/-- The directives of `log` were carried out, one behind the other, and brought
in the files of the chain in their order. -/
structure Logged (log : List Opening) (s : Source) : Prop where
  files : log.filterMap (·.file) = List.range' 1 (s.chain.size - 1)
  ordered : log.Pairwise fun o o' => o.place < o'.place
  settled : ∀ o ∈ log, o.place < s.settled
  directive : ∀ o ∈ log, ∃ t, s.cursor.tokens[o.place]? = some t
    ∧ t.kind = .inclusion
    ∧ ∀ n, o.file = some n →
      ∃ f, s.chain.get? n = some f ∧ f.trigger = some t

/-- What is settled stays as it is. -/
structure Settles (s s' : Source) : Prop where
  settled : s.settled ≤ s'.settled
  tokens : ∀ p t, p < s.settled → s.cursor.tokens[p]? = some t →
    s'.cursor.tokens[p]? = some t

namespace Settles

variable {s s' s'' : Source}

theorem refl (s : Source) : Settles s s := ⟨Nat.le_refl _, fun _ _ _ ht => ht⟩

theorem trans (h : Settles s s') (h' : Settles s' s'') : Settles s s'' :=
  ⟨h.settled.trans h'.settled, fun p t hp ht =>
    h'.tokens p t (hp.trans_le h.settled) (h.tokens p t hp ht)⟩

/-- The tokens up to some place stay, and that is behind all that is settled. -/
theorem behind {front rest rest' : List Token}
    (hsettled : s.settled ≤ s'.settled)
    (htokens : s.cursor.tokens = front ++ rest)
    (htokens' : s'.cursor.tokens = front ++ rest')
    (hfront : s.settled ≤ front.length ∨ rest = []) : Settles s s' := by
  refine ⟨hsettled, fun p t hp ht => ?_⟩
  have hlt : p < front.length := by
    rcases hfront with hfront | rfl
    · exact hp.trans_le hfront
    · rw [htokens, List.append_nil] at ht
      exact (List.getElem?_eq_some_iff.1 ht).1
  rw [htokens, List.getElem?_append_left hlt] at ht
  rw [htokens', List.getElem?_append_left hlt, ht]

theorem edit (h : Edit s s') : Settles s s' := by
  cases h with
  | aside hcursor hchain hexpanded hcache =>
      have htokens := congrArg Cursor.tokens hcursor
      refine ⟨?_, fun p t _ ht => htokens ▸ ht⟩
      unfold Source.settled
      rw [hcursor]
      exact Nat.add_le_add_left hexpanded _
  | @value front rest ts t ht hfresh hk hts =>
      have htokens : s.cursor.tokens
          = (s.cursor.passed.reverse ++ front) ++ t :: rest := by
        unfold Cursor.tokens
        rw [ht, List.append_assoc]
      have htokens' : Cursor.tokens { s.cursor with
          ahead := front ++ ts ++ rest }
          = (s.cursor.passed.reverse ++ front) ++ (ts ++ rest) := by
        unfold Cursor.tokens
        dsimp only
        rw [List.append_assoc, List.append_assoc]
      refine behind (Nat.le_refl _) htokens htokens' (Or.inl ?_)
      rw [List.length_append, List.length_reverse]
      exact Nat.add_le_add_left hfresh _
  | @file a path tokens f hfresh hk hf hget =>
      have htokens : s.cursor.tokens
          = (s.cursor.passed.reverse ++ s.cursor.ahead.take a.next.skipped)
            ++ s.cursor.ahead.drop a.next.skipped := by
        unfold Cursor.tokens
        rw [List.append_assoc, List.take_append_drop]
      have htokens' : (s.cursor.insert a.next
            (ownedBy s.chain.size tokens)).tokens
          = (s.cursor.passed.reverse ++ s.cursor.ahead.take a.next.skipped)
            ++ (ownedBy s.chain.size tokens
              ++ s.cursor.ahead.drop a.next.skipped) := by
        unfold Cursor.tokens Cursor.insert
        dsimp only
        rw [List.append_assoc, List.append_assoc]
      refine behind (Nat.add_le_add_left (Nat.le_max_left _ _) _) htokens
        htokens' ?_
      rw [List.length_append, List.length_reverse, List.length_take]
      rcases Nat.lt_or_ge s.cursor.ahead.length a.next.skipped with hlt | hge
      · exact Or.inr (List.drop_eq_nil_of_le (Nat.le_of_lt hlt))
      · rw [Nat.min_eq_left hge]
        exact Or.inl (Nat.add_le_add_left (Nat.le_succ_of_le hfresh) _)

theorem edits (h : Edits s s') : Settles s s' := by
  induction h with
  | refl => exact .refl s
  | tail _ he ih => exact ih.trans (.edit he)

end Settles

namespace Logged

variable {log : List Opening} {s s' : Source} {o : Opening} {t : Token}

/-- As long as no file is put in, the log stays as it is. -/
theorem settles (h : Logged log s) (hs : Settles s s')
    (hchain : s'.chain = s.chain) : Logged log s' := by
  refine ⟨hchain ▸ h.files, h.ordered, fun o ho =>
    (h.settled o ho).trans_le hs.settled, fun o ho => ?_⟩
  obtain ⟨t, ht, hk, hfile⟩ := h.directive o ho
  exact ⟨t, hs.tokens _ t (h.settled o ho) ht, hk, hchain ▸ hfile⟩

/-- One more directive is carried out. -/
theorem concat (h : Logged log s) (hs : Settles s s')
    (hgrows : s.chain.Grows s'.chain) (hplace : s.settled ≤ o.place)
    (hsettled : o.place < s'.settled)
    (ht : s'.cursor.tokens[o.place]? = some t) (hk : t.kind = .inclusion)
    (hfiles : List.range' 1 (s'.chain.size - 1)
      = List.range' 1 (s.chain.size - 1) ++ o.file.toList)
    (hfile : ∀ n, o.file = some n →
      ∃ f, s'.chain.get? n = some f ∧ f.trigger = some t) :
    Logged (log ++ [o]) s' := by
  have hlast : ([o].filterMap (·.file)) = o.file.toList := by
    cases hf : o.file <;> simp [hf]
  refine ⟨?_, ?_, fun p hp => ?_, fun p hp => ?_⟩
  · rw [List.filterMap_append, h.files, hlast, hfiles]
  · refine List.pairwise_append.2 ⟨h.ordered, List.pairwise_singleton .., ?_⟩
    intro p hp q hq
    rw [List.mem_singleton.1 hq]
    exact (h.settled p hp).trans_le hplace
  · rcases List.mem_append.1 hp with hp | hp
    · exact (h.settled p hp).trans_le hs.settled
    · rw [List.mem_singleton.1 hp]
      exact hsettled
  · rcases List.mem_append.1 hp with hp | hp
    · obtain ⟨u, hu, hku, hold⟩ := h.directive p hp
      refine ⟨u, hs.tokens _ u (h.settled p hp) hu, hku, fun n hn => ?_⟩
      obtain ⟨f, hf, htrigger⟩ := hold n hn
      exact ⟨f, hgrows n f hf, htrigger⟩
    · rw [List.mem_singleton.1 hp]
      exact ⟨t, ht, hk, hfile⟩

end Logged

-- ============================================================== directives

section Directives

variable (env : Environment) (s : State) (a : Ahead) (t : Token)
  {p : Token → Prop}

/-- A directive that is carried out: no file is put in, and its item says so at
most; or one is, where the files are not too deep, and its item tells which. -/
theorem includeAt_cases (ht : p t) :
    (Notes p s (s.includeAt env a t)
        ∧ (s.includeAt env a t).source.cursor = s.source.cursor)
      ∨ ∃ path own f, BringsIn s.source.chain t path f
        ∧ (s.source.chain.lineage t.owner).length
          ≤ env.options.maxIncludeDepth
        ∧ (s.includeAt env a t).source.chain = s.source.chain.push f
        ∧ (s.includeAt env a t).source.cursor
          = s.source.cursor.insert a.next (ownedBy s.source.chain.size own)
        ∧ (s.includeAt env a t).marks
          = s.marks ++ [⟨t, some s.source.chain.size, none⟩]
        ∧ (s.includeAt env a t).analysis = s.analysis := by
  unfold State.includeAt
  split
  · exact Or.inl ⟨.refl s, rfl⟩
  rename_i hdepth
  split
  · exact Or.inl ⟨.refl s, rfl⟩
  rename_i call _
  dsimp only
  obtain ⟨hcursor, hchain, -, -, htokens⟩ :=
    openInclude_stream env.resolver s.source call.file t.owner
  generalize State.openInclude env.resolver s.source call.file t.owner = opened
    at *
  obtain ⟨path, tokens, source⟩ := opened
  dsimp only at hcursor hchain htokens ⊢
  cases tokens with
  | none =>
      refine Or.inl ⟨Notes.trans (.aside ?_ ?_ ?_)
        (.addItem _ call.file ht (by trivial)), hcursor⟩
      · exact hchain
      all_goals rfl
  | some tokens =>
      obtain ⟨path, rfl, -⟩ := htokens tokens rfl
      let file : ChainFile :=
        { name := call.file, path := some path, trigger := some t
          parent := some t.owner, rootLine := source.chain.rootLine t
          arguments := call }
      refine Or.inr ⟨path, tokens, file,
        ⟨rfl, rfl, rfl, congrArg (·.rootLine t) hchain⟩,
        Nat.le_of_not_lt hdepth, ?_, ?_, ?_, rfl⟩
      · exact congrArg (·.push file) hchain
      · rw [← hcursor, ← hchain]
        rfl
      · rw [← hchain]
        exact marks_addItem _ _ _ _

end Directives

-- =============================================================== invariant

/-- The numbers of the files that were brought in, with one more. -/
theorem range'_one_succ {size : Nat} (hpos : 0 < size) :
    List.range' 1 (size + 1 - 1) = List.range' 1 (size - 1) ++ [size] := by
  rw [Nat.add_sub_cancel, ← Nat.sub_add_cancel hpos, List.range'_concat,
    Nat.add_sub_cancel, Nat.one_mul, Nat.add_comm 1]

theorem getElem?_between (pre rest : List Token) (t : Token) :
    (pre ++ t :: rest)[pre.length]? = some t := by
  simp

/-- What is marked as expanded is settled. -/
theorem settled_markExpanded (s : State) (a : Ahead) :
    s.source.cursor.passed.length + a.skipped
      < (s.markExpanded a).source.settled := by
  refine Nat.add_lt_add_left ?_ _
  exact Nat.lt_of_lt_of_le (Nat.lt_succ_self _) (Nat.le_max_right _ _)

/-- What a parse keeps of its files: they are a tree, the items belong to them
and tell of each that was brought in, and so does the log. -/
structure Included (limit : Nat) (log : List Opening) (s : State) : Prop where
  tree : IncludeTree limit s.source.chain
  files : s.marks.filterMap (·.opened)
    = List.range' 1 (s.source.chain.size - 1)
  owners : ∀ m ∈ s.marks, m.token.owner < s.source.chain.size
  statement : s.analysis.statement.IsFrom (·.owner < s.source.chain.size)
  log : Logged log s.source

namespace Included

variable {limit : Nat} {log : List Opening} {s s' : State} {text : String}
  {env : Environment} {a : Ahead}

/-- What finds items only keeps it. -/
theorem notes (h : Included limit log s)
    (hn : Notes (·.owner < s.source.chain.size) s s') (hs : Settles s.source s'.source) :
    Included limit log s' := by
  obtain ⟨new, hmarks, hnew⟩ := hn.marks
  have hnone : new.filterMap (·.opened) = [] :=
    List.filterMap_eq_nil_iff.2 fun m hm => (hnew m hm).2.1
  refine ⟨hn.chain ▸ h.tree, ?_, fun m hm => ?_, ?_, h.log.settles hs hn.chain⟩
  · rw [hmarks, List.filterMap_append, hnone, List.append_nil, hn.chain, h.files]
  · rw [hmarks] at hm
    rw [hn.chain]
    exact (List.mem_append.1 hm).elim (h.owners m) fun hm => (hnew m hm).1
  · rw [hn.chain]
    exact hn.statement h.statement

theorem expands (h : Included limit log s)
    (he : Expands (·.owner < s.source.chain.size) s s') :
    Included limit log s' := h.notes he.notes (.edits he.edits)

/-- A file is brought in, and its item tells so. -/
theorem grown (h : Included limit log s) {t : Token} {path : String}
    {f : ChainFile} {log' : List Opening} (hk : t.kind = .inclusion)
    (ht : t.owner < s.source.chain.size)
    (hdepth : (s.source.chain.lineage t.owner).length ≤ limit)
    (hf : BringsIn s.source.chain t path f)
    (hchain : s'.source.chain = s.source.chain.push f)
    (hmarks : s'.marks = s.marks ++ [⟨t, some s.source.chain.size, none⟩])
    (hanalysis : s'.analysis = s.analysis) (hlog : Logged log' s'.source) :
    Included limit log' s' := by
  have hsize : s'.source.chain.size = s.source.chain.size + 1 :=
    hchain ▸ Array.size_push _
  have hwider : ∀ {n}, n < s.source.chain.size → n < s'.source.chain.size :=
    fun hn => hsize ▸ Nat.lt_succ_of_lt hn
  refine ⟨?_, ?_, fun m hm => ?_, fun p hp => ?_, hlog⟩
  · rw [hchain]
    exact h.tree.push hk ht hdepth hf.trigger hf.parent hf.rootLine
  · rw [hmarks, List.filterMap_append, h.files, hsize,
      range'_one_succ (Nat.zero_lt_of_lt ht)]
    rfl
  · rw [hmarks] at hm
    rcases List.mem_append.1 hm with hm | hm
    · exact hwider (h.owners m hm)
    · rw [List.mem_singleton.1 hm]
      exact hwider ht
  · rw [hanalysis] at hp
    exact hwider (h.statement p hp)

/-- A directive at `a` that is carried out is one more of the log. -/
theorem carriedOut (h : Included env.options.maxIncludeDepth log s)
    (hi : Intact text s.source) (hfresh : s.source.expanded ≤ a.skipped)
    (hk : (s.source.cursor.peekAhead a).kind = .inclusion) {o : Opening}
    (hplace : o.place = s.source.cursor.passed.length + a.skipped)
    (hfile : o.file = if s.source.chain.size < (s.includeAt env a
      (s.source.cursor.peekAhead a)).source.chain.size
        then some s.source.chain.size else none) :
    Included env.options.maxIncludeDepth (log ++ [o])
      ((s.includeAt env a (s.source.cursor.peekAhead a)).markExpanded a) := by
  have heof := isEof_of_kind hk nofun
  have ht := (hi.mem_known (List.mem_append_right _
    (peekAhead_mem hi.beyond heof))).owner
  have hedits := includeAt_edits env s a hfresh hk
  have hsettles := Settles.edits hedits
  have hbefore : s.source.settled ≤ o.place :=
    hplace ▸ Nat.add_le_add_left hfresh _
  have hcases := includeAt_cases (p := (·.owner < s.source.chain.size)) env s a
    _ ht
  generalize s.includeAt env a (s.source.cursor.peekAhead a) = u at *
  have hbehind := settled_markExpanded u a
  have hmark : Notes (·.owner < s.source.chain.size) u (u.markExpanded a) :=
    .aside rfl rfl rfl
  rcases hcases with ⟨hnotes, hcursor⟩
    | ⟨path, own, f, hf, hdepth, hchain, hcursor, hmarks, hanalysis⟩
  · obtain ⟨pre, rest, hlength, htokens, -⟩ := tokens_insert hi.beyond heof []
    have hnofile : o.file = none := by
      rw [hfile, hnotes.chain]
      exact if_neg (Nat.lt_irrefl _)
    have hkept := h.notes (hnotes.trans hmark) hsettles
    refine ⟨hkept.tree, hkept.files, hkept.owners, hkept.statement,
      h.log.concat hsettles hedits.grows hbefore ?_ ?_ hk ?_ ?_⟩
    · rw [hcursor] at hbehind
      exact hplace ▸ hbehind
    · show u.source.cursor.tokens[o.place]? = _
      rw [hcursor, htokens, hplace, ← hlength]
      exact getElem?_between _ _ _
    · rw [hnofile, Option.toList_none, List.append_nil]
      exact congrArg (fun c => List.range' 1 (IncludeChain.size c - 1))
        hnotes.chain
    · rw [hnofile]
      nofun
  · obtain ⟨pre, rest, hlength, -, htokens⟩ := tokens_insert hi.beyond heof
      (ownedBy s.source.chain.size own)
    have hsize : u.source.chain.size = s.source.chain.size + 1 :=
      hchain ▸ Array.size_push _
    have hsome : o.file = some s.source.chain.size := by
      rw [hfile, hsize]
      exact if_pos (Nat.lt_succ_self _)
    refine h.grown hk ht hdepth hf hchain hmarks hanalysis
      (h.log.concat hsettles hedits.grows hbefore ?_ ?_ hk ?_ ?_)
    · rw [hcursor] at hbehind
      exact hplace ▸ hbehind
    · show u.source.cursor.tokens[o.place]? = _
      rw [hcursor, htokens, hplace, ← hlength, List.append_assoc]
      exact getElem?_between _ _ _
    · show List.range' 1 (u.source.chain.size - 1) = _
      rw [hsome, hsize]
      exact range'_one_succ (Nat.zero_lt_of_lt ht)
    · intro n hn
      cases hsome.symm.trans hn
      refine ⟨f, ?_, hf.trigger⟩
      show u.source.chain.get? _ = _
      rw [hchain]
      exact Array.getElem?_push_size

/-- What expansion carries out is one more of the log, if it is a directive. -/
theorem expandAt (h : Included env.options.maxIncludeDepth log s)
    (hi : Intact text s.source) :
    Included env.options.maxIncludeDepth (log ++ (s.opening? env a).toList)
      (s.expandAt env a true) := by
  unfold State.opening? State.expandAt
  split
  · rw [Option.toList_none, List.append_nil]
    exact h
  rename_i hnot
  have hfresh := fresh_of_not_isExpanded hnot
  have hsettle : Substitutions env.options.platform s _ :=
    settle_substitutions env.options.maxExpansionDepth hfresh
  have hi' := hi.edits hsettle.edits
  have h' := h.expands (hsettle.expands (fun _ => Known.owner) ⟨hi, rfl⟩)
  rw [← hsettle.expanded] at hfresh
  generalize s.settle env.options.platform a env.options.maxExpansionDepth = u
    at *
  rw [if_pos rfl]
  unfold State.expandInclude
  dsimp only
  split
  case isTrue hk => exact h'.carriedOut hi' hfresh hk rfl rfl
  case isFalse =>
    rw [Option.toList_none, List.append_nil]
    have hmark : Edits u.source (u.markExpanded a).source :=
      .single (.aside _ rfl rfl (Nat.le_max_left _ _) fun _ _ hget => hget)
    exact h'.notes (.aside rfl rfl rfl) (.edits hmark)

end Included

end Parse

end AblOutline
