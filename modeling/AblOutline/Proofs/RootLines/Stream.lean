/-
The order of the stream. Each token counts for a line of the file being read,
its own or that of the directive that brought its file in, and these lines
never go back from one token ahead to the next:

    stream            a  b {inc.i}  c  d
    counts for        0  1  1       2  2
    file put in       a  b {inc.i}  x  y  z  c  d
    counts for        0  1  1       1  1  1  2  2

What is put in counts for the line of the token that brings it, and stands
where that token stands (`Ascending.edit`). Files are put in after directives
that are not expanded yet. So a file that is put in counts for no line above
those before it, as long as no file counts for a line below that of a token not
expanded yet: `Ascending` says that, too.
-/
import AblOutline.Proofs.Lines

namespace AblOutline

-- ================================================================ placed

/-- The files that were there keep their tokens. -/
theorem IncludeChain.Grows.rootLine {c c' : IncludeChain} (h : c.Grows c')
    {t : Token} (ht : t.owner < c.size) :
    t.owner < c'.size ∧ c'.rootLine t = c.rootLine t := by
  have hget : c.get? t.owner = some c.files[t.owner] :=
    Array.getElem?_eq_getElem ht
  have hget' := h _ _ hget
  refine ⟨(Array.getElem?_eq_some_iff.1 hget').1, ?_⟩
  unfold IncludeChain.rootLine
  rw [hget, hget']

/-- The token is of one of the files, and counts for one of the lines from
`since` to `now`. -/
structure Placed (c : IncludeChain) (since now : Nat) (t : Token) : Prop where
  owner : t.owner < c.size
  since : since ≤ c.rootLine t
  now : c.rootLine t ≤ now

namespace Placed

variable {c c' : IncludeChain} {since since' now now' : Nat} {t : Token}

theorem grows (h : Placed c since now t) (hc : c.Grows c') :
    Placed c' since now t := by
  obtain ⟨howner, hline⟩ := hc.rootLine h.owner
  exact ⟨howner, hline ▸ h.since, hline ▸ h.now⟩

theorem weaken (h : Placed c since now t) (hsince : since' ≤ since)
    (hnow : now ≤ now') : Placed c since' now' t :=
  ⟨h.owner, hsince.trans h.since, h.now.trans hnow⟩

end Placed

namespace Parse

-- ================================================================= order

/-- The lines that the tokens ahead count for. -/
def Source.linesAhead (s : Source) : List Nat :=
  s.cursor.ahead.map s.chain.rootLine

/-- The tokens ahead are of files of the chain, and count for lines that never
go back, from `now` on. Nor do those of the files go back, and no file counts
for a line below that of a token that is not expanded yet. -/
structure Ascending (now : Nat) (s : Source) : Prop where
  beyond : s.cursor.beyond.isEof = true
  known : ∀ t ∈ s.cursor.ahead, t.owner < s.chain.size
  lines : (now :: s.linesAhead).Pairwise (· ≤ ·)
  files : s.chain.files.toList.Pairwise (·.rootLine ≤ ·.rootLine)
  fresh : ∀ f ∈ s.chain.files.toList, ∀ n ∈ s.linesAhead.drop s.expanded,
    f.rootLine ≤ n

/-- Any number of entries like `n` may stand in its place. -/
theorem pairwise_le_between {front rest ns : List Nat} {n : Nat}
    (h : (front ++ n :: rest).Pairwise (· ≤ ·)) (hns : ∀ m ∈ ns, m = n) :
    (front ++ (ns ++ rest)).Pairwise (· ≤ ·) := by
  obtain ⟨hfront, hrest, hbefore⟩ := List.pairwise_append.1 h
  obtain ⟨hfirst, hrest⟩ := List.pairwise_cons.1 hrest
  refine List.pairwise_append.2 ⟨hfront, List.pairwise_append.2 ⟨?_, hrest, ?_⟩,
    fun m hm k hk => ?_⟩
  · exact List.pairwise_of_forall_mem_list fun m hm k hk =>
      Nat.le_of_eq ((hns m hm).trans (hns k hk).symm)
  · exact fun m hm k hk => hns m hm ▸ hfirst k hk
  · rcases List.mem_append.1 hk with hk | hk
    · exact hns k hk ▸ hbefore m hm n List.mem_cons_self
    · exact hbefore m hm k (List.mem_cons_of_mem _ hk)

/-- A token that is seen ahead, with those before and after it. -/
theorem split_peekAhead {c : Cursor} {a : Ahead} (hb : c.beyond.isEof = true)
    (h : (c.peekAhead a).isEof = false) :
    c.ahead = c.ahead.take a.skipped
        ++ c.peekAhead a :: c.ahead.drop a.next.skipped
      ∧ (c.ahead.take a.skipped).length = a.skipped := by
  cases hget : c.ahead[a.skipped]? with
  | none =>
      have hbeyond : c.peekAhead a = c.beyond := by
        unfold Cursor.peekAhead
        rw [hget, Option.getD_none]
      rw [hbeyond, hb] at h
      cases h
  | some t =>
      obtain ⟨hlt, ht⟩ := List.getElem?_eq_some_iff.1 hget
      have hpeek : c.peekAhead a = c.ahead[a.skipped] := by
        unfold Cursor.peekAhead
        rw [hget, Option.getD_some, ht]
      refine ⟨?_, List.length_take_of_le (Nat.le_of_lt hlt)⟩
      rw [hpeek]
      show _ = _ ++ _ :: c.ahead.drop (a.skipped + 1)
      rw [← List.drop_eq_getElem_cons hlt, List.take_append_drop]

namespace Ascending

variable {now : Nat} {source source' : Source} {s s' : State} {t : Token}

theorem value {front rest ts : List Token} (h : Ascending now source)
    (ht : source.cursor.ahead = front ++ t :: rest)
    (hfresh : source.expanded ≤ front.length)
    (hts : ∀ v ∈ ts, StandsFor t v) :
    Ascending now { source with cursor :=
      { source.cursor with ahead := front ++ ts ++ rest } } := by
  have hold : source.linesAhead = front.map source.chain.rootLine
      ++ source.chain.rootLine t :: rest.map source.chain.rootLine := by
    unfold Source.linesAhead
    rw [ht, List.map_append, List.map_cons]
  have hlike : ∀ n ∈ ts.map source.chain.rootLine,
      n = source.chain.rootLine t := by
    intro n hn
    obtain ⟨v, hv, rfl⟩ := List.mem_map.1 hn
    exact (hts v hv).rootLine _
  have hnew : Source.linesAhead { source with cursor :=
        { source.cursor with ahead := front ++ ts ++ rest } }
      = front.map source.chain.rootLine ++ (ts.map source.chain.rootLine
        ++ rest.map source.chain.rootLine) := by
    show (front ++ ts ++ rest).map source.chain.rootLine = _
    rw [List.append_assoc, List.map_append, List.map_append]
  have hlength : source.expanded
      ≤ (front.map source.chain.rootLine).length := by
    rw [List.length_map]
    exact hfresh
  refine ⟨h.beyond, fun v hv => ?_, ?_, h.files, fun f hf n hn => ?_⟩
  · have hknown := h.known
    rw [ht] at hknown
    rcases List.mem_append.1 hv with hv | hv
    · rcases List.mem_append.1 hv with hv | hv
      · exact hknown v (List.mem_append_left _ hv)
      · exact (hts v hv).owner ▸
          hknown t (List.mem_append_right _ List.mem_cons_self)
    · exact hknown v (List.mem_append_right _ (List.mem_cons_of_mem _ hv))
  · have hlines := h.lines
    rw [hold, ← List.cons_append] at hlines
    rw [hnew, ← List.cons_append]
    exact pairwise_le_between hlines hlike
  · have hold' := h.fresh f hf
    rw [hold, List.drop_append_of_le_length hlength] at hold'
    rw [hnew, List.drop_append_of_le_length hlength] at hn
    rcases List.mem_append.1 hn with hn | hn
    · exact hold' n (List.mem_append_left _ hn)
    rcases List.mem_append.1 hn with hn | hn
    · exact hlike n hn ▸
        hold' _ (List.mem_append_right _ List.mem_cons_self)
    · exact hold' n (List.mem_append_right _ (List.mem_cons_of_mem _ hn))

theorem file {a : Ahead} {ts : List Token} {f : ChainFile}
    (h : Ascending now source) (hfresh : source.expanded ≤ a.skipped)
    (hk : (source.cursor.peekAhead a).kind = .inclusion)
    (hline : f.rootLine = source.chain.rootLine (source.cursor.peekAhead a))
    (hts : ∀ v ∈ ts, v.owner = source.chain.size ∧ v.isEof = false) :
    Ascending now { source with
      chain := source.chain.push f
      cursor := source.cursor.insert a.next ts
      expanded := max source.expanded a.distance } := by
  obtain ⟨hsplit, hlength⟩ :=
    split_peekAhead h.beyond (isEof_of_kind hk nofun)
  have hmem : ∀ v ∈ (source.cursor.insert a.next ts).ahead,
      v ∈ source.cursor.ahead ∨ v ∈ ts := by
    intro v hv
    rcases List.mem_append.1 hv with hv | hv
    · rcases List.mem_append.1 hv with hv | hv
      · exact Or.inl (List.mem_of_mem_take hv)
      · exact Or.inr hv
    · exact Or.inl (List.mem_of_mem_drop hv)
  have hdirective : source.cursor.peekAhead a ∈ source.cursor.ahead :=
    peekAhead_mem h.beyond (isEof_of_kind hk nofun)
  have hpos : 0 < source.chain.size :=
    Nat.zero_lt_of_lt (h.known _ hdirective)
  have hsize : (source.chain.push f).size = source.chain.size + 1 :=
    Array.size_push _
  -- the lines ahead, before and after
  generalize hfront : source.cursor.ahead.take a.skipped = front at *
  generalize hrest : source.cursor.ahead.drop a.next.skipped = rest at *
  generalize hn : source.chain.rootLine (source.cursor.peekAhead a) = n at *
  have hold : source.linesAhead = front.map source.chain.rootLine
      ++ n :: rest.map source.chain.rootLine := by
    unfold Source.linesAhead
    rw [hsplit, List.map_append, List.map_cons, hn]
  have hlike : ∀ m ∈ n :: ts.map (source.chain.push f).rootLine, m = n := by
    refine List.forall_mem_cons.2 ⟨rfl, fun m hm => ?_⟩
    obtain ⟨v, hv, rfl⟩ := List.mem_map.1 hm
    rw [rootLine_push_size (hts v hv).1 hpos, hline]
  have hnew : (source.cursor.insert a.next ts).ahead.map
        (source.chain.push f).rootLine
      = front.map source.chain.rootLine
        ++ ((n :: ts.map (source.chain.push f).rootLine)
          ++ rest.map source.chain.rootLine) := by
    have hsame : ∀ vs, vs ⊆ source.cursor.ahead →
        vs.map (source.chain.push f).rootLine
          = vs.map source.chain.rootLine := fun vs hvs =>
      List.map_congr_left fun v hv => rootLine_push (h.known v (hvs hv))
    have htake : source.cursor.ahead.take a.next.skipped
        = front ++ [source.cursor.peekAhead a] := by
      rw [hsplit, ← List.singleton_append, ← List.append_assoc]
      refine List.take_left' ?_
      rw [List.length_append, hlength]
      rfl
    show (source.cursor.ahead.take a.next.skipped ++ ts
      ++ source.cursor.ahead.drop a.next.skipped).map _ = _
    rw [hrest, List.map_append, List.map_append, hsame _ (List.take_subset ..),
      hsame rest (hrest ▸ List.drop_subset ..), htake, List.map_append,
      List.map_singleton, hn]
    simp only [List.append_assoc, List.cons_append, List.nil_append]
  have hfrontlength : (front.map source.chain.rootLine).length = a.skipped := by
    rw [List.length_map, hlength]
  have hbehind : (n :: rest.map source.chain.rootLine)
      ⊆ source.linesAhead.drop source.expanded := by
    rw [hold, List.drop_append_of_le_length (hfrontlength.symm ▸ hfresh)]
    exact List.subset_append_right _ _
  have hfiles : (source.chain.push f).files.toList
      = source.chain.files.toList ++ [f] := Array.toList_push
  have hbefore : ∀ g ∈ source.chain.files.toList, g.rootLine ≤ n :=
    fun g hg => h.fresh g hg n (hbehind List.mem_cons_self)
  have hlines := h.lines
  rw [hold, ← List.cons_append] at hlines
  refine ⟨h.beyond, fun v hv => ?_, ?_, ?_, fun g hg m hm => ?_⟩
  · show v.owner < (source.chain.push f).size
    rw [hsize]
    rcases hmem v hv with hv | hv
    · exact Nat.lt_succ_of_lt (h.known v hv)
    · exact Nat.lt_succ_of_le (Nat.le_of_eq (hts v hv).1)
  · show (now :: (source.cursor.insert a.next ts).ahead.map
      (source.chain.push f).rootLine).Pairwise _
    rw [hnew, ← List.cons_append]
    exact pairwise_le_between hlines hlike
  · show (source.chain.push f).files.toList.Pairwise _
    rw [hfiles]
    refine List.pairwise_append.2
      ⟨h.files, List.pairwise_singleton .., fun g hg f' hf' => ?_⟩
    rw [List.mem_singleton.1 hf', hline]
    exact hbefore g hg
  · -- what is not expanded stands behind the directive
    change g ∈ (source.chain.push f).files.toList at hg
    change m ∈ ((source.cursor.insert a.next ts).ahead.map
      (source.chain.push f).rootLine).drop
        (max source.expanded a.distance) at hm
    have hlater : m ∈ ts.map (source.chain.push f).rootLine
        ++ rest.map source.chain.rootLine := by
      have hdrop := List.drop_subset_drop_left _
        (Nat.le_max_right source.expanded a.distance) hm
      rw [hnew, List.cons_append, ← List.singleton_append,
        ← List.append_assoc] at hdrop
      rwa [List.drop_left' ?_] at hdrop
      rw [List.length_append, hfrontlength]
      rfl
    have hle : n ≤ m := by
      rcases List.mem_append.1 hlater with hm | hm
      · exact Nat.le_of_eq (hlike m (List.mem_cons_of_mem _ hm)).symm
      · exact List.rel_of_pairwise_cons
          (List.pairwise_append.1 hlines).2.1 hm
    rw [hfiles] at hg
    rcases List.mem_append.1 hg with hg | hg
    · exact (hbefore g hg).trans hle
    · rw [List.mem_singleton.1 hg, hline]
      exact hle

theorem edit (h : Ascending now source) (he : Edit source source') :
    Ascending now source' := by
  cases he with
  | aside hcursor hchain hexpanded hcache =>
      have hlines : source'.linesAhead = source.linesAhead := by
        unfold Source.linesAhead
        rw [hcursor, hchain]
      refine ⟨?_, ?_, ?_, ?_, ?_⟩
      · rw [hcursor]
        exact h.beyond
      · rw [hcursor, hchain]
        exact h.known
      · rw [hlines]
        exact h.lines
      · rw [hchain]
        exact h.files
      · rw [hchain, hlines]
        exact fun f hf n hn =>
          h.fresh f hf n (List.drop_subset_drop_left _ hexpanded hn)
  | value ht hfresh hk hts => exact h.value ht hfresh hts
  | file a hfresh hk hf htokens =>
      exact h.file hfresh hk hf.rootLine mem_ownedBy

theorem edits (h : Ascending now source) (he : Edits source source') :
    Ascending now source' := by
  induction he with
  | refl => exact h
  | tail _ he ih => exact ih.edit he

/-- The cursor moves on to a token that counts for the next line. -/
theorem advance {u : State} (h : Ascending now s.source)
    (hu : s.advance? = some u) :
    Ascending (u.rootLine u.source.cursor.current) u.source
      ∧ u.source.cursor.current.owner < u.source.chain.size
      ∧ now ≤ u.rootLine u.source.cursor.current := by
  obtain ⟨cursor, hcursor, rfl⟩ := Option.map_eq_some_iff.1 hu
  unfold Cursor.advance? at hcursor
  obtain ⟨hbeyond, hknown, hlines, hfiles, hfresh⟩ := h
  unfold Source.linesAhead at hlines hfresh
  split at hcursor
  · cases hcursor
  rename_i t rest hahead
  cases hcursor
  rw [hahead] at hknown hlines hfresh
  obtain ⟨hnow, hrest⟩ := List.pairwise_cons.1 hlines
  refine ⟨⟨hbeyond, fun v hv => hknown v (List.mem_cons_of_mem _ hv), hrest,
    hfiles, fun f hf n hn => hfresh f hf n ?_⟩, hknown t List.mem_cons_self,
    hnow _ List.mem_cons_self⟩
  cases hexpanded : s.source.expanded with
  | zero => exact List.mem_cons_of_mem _ (List.mem_of_mem_drop hn)
  | succ expanded =>
      change n ∈ (rest.map s.source.chain.rootLine).drop
        (s.source.expanded - 1) at hn
      rw [hexpanded] at hn
      exact hn

theorem opened (cache : TokenCache) (text : String) (path : Option String) :
    Ascending 0 (State.opened cache text path).source := by
  have howner := (tokenize_lines text).1
  have hlines : (State.opened cache text path).source.linesAhead
      = (tokenize text).map (·.start.line) :=
    List.map_congr_left fun t ht => if_pos (howner t ht).1
  refine ⟨Cursor.isEof_beyond_ofTokens _, fun t ht => ?_, ?_,
    List.pairwise_singleton .., fun f hf n _ => ?_⟩
  · rw [(howner t ht).1]
    exact Nat.zero_lt_one
  · rw [hlines]
    exact List.pairwise_cons.2
      ⟨fun n _ => Nat.zero_le n, List.pairwise_map.2 (pairwise_tokenize text)⟩
  · rw [List.mem_singleton.1 hf]
    exact Nat.zero_le n

theorem start (env : Environment) (cache : TokenCache) (text : String)
    (path : Option String) :
    Ascending 0 (State.start env cache text path).source :=
  (opened cache text path).edits
    ((expandAt_edits env _ .nearest true).trans
      (expandAt_edits env _ Ahead.nearest.next true))

end Ascending

end Parse

end AblOutline
