/-
What becomes of the tokens of a file, in a list of tokens. `Rewritten` says
that nothing is lost, moved or changed but references, and `Enclosed` that the
tokens of a file and of all that it brings in stand together:

    [ .. {inc.i} a b {sub.i} c d e .. ]      inc.i has a b d e, sub.i has c
                 `-----------------'

Both are kept where a token at some place of the list gives way to tokens of
its own sort (`Rewritten.giveWay`, `Enclosed.giveWay`), whatever else the list holds.
-/
import AblOutline.Proofs.Stream

namespace AblOutline

-- ================================================================ lineages

namespace IncludeChain

variable {c : IncludeChain} {f : ChainFile} {owner parent : Nat}

theorem lineage_of_parent (h : c.parent? owner = some parent) :
    c.lineage owner = owner :: c.lineage parent := by
  rw [lineage]
  split
  · rename_i p hp
    rw [h] at hp
    cases hp
    rfl
  · rename_i hp
    rw [h] at hp
    cases hp

theorem lineage_of_root (h : c.parent? owner = none) :
    c.lineage owner = [owner] := by
  rw [lineage]
  split
  · rename_i p hp
    rw [h] at hp
    cases hp
  · rfl

theorem mem_lineage_self (c : IncludeChain) (owner : Nat) :
    owner ∈ c.lineage owner := by
  cases h : c.parent? owner with
  | none => exact lineage_of_root h ▸ List.mem_cons_self
  | some parent => exact lineage_of_parent h ▸ List.mem_cons_self

/-- One more file is in the lineage of no other. -/
theorem lineage_push (h : owner < c.size) :
    (c.push f).lineage owner = c.lineage owner := by
  induction owner using Nat.strongRecOn with
  | ind owner ih =>
      have hparent : (c.push f).parent? owner = c.parent? owner := by
        unfold parent?
        rw [show (c.push f).get? owner = c.get? owner from
          Array.getElem?_push.trans (if_neg (Nat.ne_of_lt h))]
      cases hp : c.parent? owner with
      | none => rw [lineage_of_root hp, lineage_of_root (hparent.trans hp)]
      | some parent =>
          have hlt := parent?_lt hp
          rw [lineage_of_parent hp, lineage_of_parent (hparent.trans hp),
            ih parent hlt (Nat.lt_trans hlt h)]

/-- The lineage of a new file is that of the file that brings it in, and
itself. -/
theorem lineage_push_size (hf : f.parent = some parent)
    (hlt : parent < c.size) :
    (c.push f).lineage c.size = c.size :: c.lineage parent := by
  have hparent : (c.push f).parent? c.size = some parent := by
    unfold parent?
    rw [show (c.push f).get? c.size = some f from Array.getElem?_push_size]
    exact Option.filter_eq_some_iff.2 ⟨hf, decide_eq_true hlt⟩
  rw [lineage_of_parent hparent, lineage_push hlt]

end IncludeChain

namespace Parse

-- ================================================================ rewriting

theorem StandsFor.trans {t v w : Token} (h : StandsFor t v)
    (h' : StandsFor v w) : StandsFor t w :=
  ⟨h'.start.trans h.start, h'.range.trans h.range, h'.owner.trans h.owner,
    h'.kind⟩

/-- The second list is the first but for its references: each of them is kept
or gives way to tokens that stand in its place. All else is kept once, as it
is and in its order. -/
inductive Rewritten : List Token → List Token → Prop where
  | nil : Rewritten [] []
  | kept (t : Token) {ts us : List Token} (h : Rewritten ts us) :
      Rewritten (t :: ts) (t :: us)
  | value {t : Token} {run ts us : List Token} (hk : t.kind = .reference)
      (hrun : ∀ v ∈ run, StandsFor t v) (h : Rewritten ts us) :
      Rewritten (t :: ts) (run ++ us)

namespace Rewritten

variable {base us front rest run : List Token} {t : Token}

theorem refl (ts : List Token) : Rewritten ts ts := by
  induction ts with
  | nil => exact .nil
  | cons t ts ih => exact .kept t ih

/-- A reference anywhere gives way to its value: it is one of the first list,
or a token that stands for one of them. -/
theorem giveWay (h : Rewritten base us) (hus : us = front ++ t :: rest)
    (hk : t.kind = .reference) (hrun : ∀ v ∈ run, StandsFor t v) :
    Rewritten base (front ++ run ++ rest) := by
  induction h generalizing front with
  | nil =>
      have hlength := congrArg List.length hus
      rw [List.length_append] at hlength
      cases front <;> cases hlength
  | kept u h ih =>
      cases front with
      | nil =>
          cases hus
          exact .value hk hrun h
      | cons v front =>
          obtain ⟨rfl, htail⟩ := List.cons.inj hus
          exact .kept _ (ih htail)
  | value hk₀ hrun₀ h ih =>
      rename_i u inner ts vs
      have hafter : ∀ {front' : List Token}, front = inner ++ front' →
          vs = front' ++ t :: rest →
          Rewritten (u :: ts) (front ++ run ++ rest) := by
        intro front' hfront hvs
        rw [hfront, List.append_assoc, List.append_assoc,
          ← List.append_assoc front']
        exact .value hk₀ hrun₀ (ih hvs)
      rcases List.append_eq_append_iff.1 hus with
        ⟨front', hfront, hvs⟩ | ⟨inner', hinner, hrest⟩
      · exact hafter hfront hvs
      · cases inner' with
        | nil =>
            have hfront : front = inner ++ [] := by
              rw [hinner, List.append_nil, List.append_nil]
            exact hafter hfront hrest.symm
        | cons v inner' =>
            -- the reference is itself a token of a value
            obtain ⟨rfl, hrest'⟩ := List.cons.inj hrest
            have ht : StandsFor u t := hrun₀ t (by
              rw [hinner]
              exact List.mem_append_right _ List.mem_cons_self)
            rw [hrest', List.append_eq, ← List.append_assoc]
            refine .value hk₀ (fun w hw => ?_) h
            rcases List.mem_append.1 hw with hw | hw
            · rcases List.mem_append.1 hw with hw | hw
              · exact hrun₀ w (hinner ▸ List.mem_append_left _ hw)
              · exact ht.trans (hrun w hw)
            · exact hrun₀ w (hinner ▸
                List.mem_append_right _ (List.mem_cons_of_mem _ hw))

/-- Among the tokens of one file a reference gives way to its value. -/
theorem giveWay_filter {owner : Nat}
    (h : Rewritten base ((front ++ t :: rest).filter (·.owner == owner)))
    (hk : t.kind = .reference) (hrun : ∀ v ∈ run, StandsFor t v) :
    Rewritten base ((front ++ run ++ rest).filter (·.owner == owner)) := by
  rw [List.filter_append, List.filter_append]
  rw [List.filter_append, List.filter_cons] at h
  by_cases ht : t.owner = owner
  · have hall : run.filter (·.owner == owner) = run :=
      List.filter_eq_self.2 fun v hv =>
        beq_iff_eq.2 ((hrun v hv).owner.trans ht)
    rw [if_pos (beq_iff_eq.2 ht)] at h
    rw [hall]
    exact h.giveWay rfl hk hrun
  · have hnone : run.filter (·.owner == owner) = [] :=
      List.filter_eq_nil_iff.2 fun v hv he =>
        ht ((hrun v hv).owner.symm.trans (beq_iff_eq.1 he))
    rw [if_neg fun he => ht (beq_iff_eq.1 he)] at h
    rw [hnone, List.append_nil]
    exact h

end Rewritten

-- ================================================================= new files

section NewFile

variable {pre ts rest : List Token} {t : Token} {n new : Nat}

/-- A token ahead that is no end mark stands in the stream; what is put in
comes right after it. -/
theorem tokens_insert {c : Cursor} {a : Ahead} (hb : c.beyond.isEof = true)
    (h : (c.peekAhead a).isEof = false) (ts : List Token) :
    ∃ pre rest, pre.length = c.passed.length + a.skipped
      ∧ c.tokens = pre ++ c.peekAhead a :: rest
      ∧ (c.insert a.next ts).tokens = pre ++ c.peekAhead a :: ts ++ rest := by
  obtain ⟨hlt, hpeek⟩ :
      ∃ hlt : a.skipped < c.ahead.length, c.peekAhead a = c.ahead[a.skipped] := by
    unfold Cursor.peekAhead at h ⊢
    cases hat : c.ahead[a.skipped]? with
    | none =>
        rw [hat, Option.getD_none, hb] at h
        cases h
    | some t =>
        obtain ⟨hlt, rfl⟩ := List.getElem?_eq_some_iff.1 hat
        exact ⟨hlt, rfl⟩
  refine ⟨c.passed.reverse ++ c.ahead.take a.skipped,
    c.ahead.drop (a.skipped + 1), ?_, ?_, ?_⟩
  · rw [List.length_append, List.length_reverse,
      List.length_take_of_le (Nat.le_of_lt hlt)]
  · unfold Cursor.tokens
    rw [List.append_assoc, hpeek, ← List.drop_eq_getElem_cons hlt,
      List.take_append_drop]
  · unfold Cursor.tokens Cursor.insert Ahead.next
    dsimp only
    rw [List.take_succ_eq_append_getElem hlt, ← hpeek]
    simp only [List.append_assoc, List.cons_append, List.nil_append]

theorem filter_owner_eq_nil (h : ∀ v ∈ ts, v.owner ≠ n) :
    ts.filter (·.owner == n) = [] :=
  List.filter_eq_nil_iff.2 fun v hv he => h v hv (beq_iff_eq.1 he)

/-- The tokens of a new file are none of another. -/
theorem filter_owner_old (hts : ∀ v ∈ ts, v.owner = new) (hn : n ≠ new) :
    (pre ++ t :: ts ++ rest).filter (·.owner == n)
      = (pre ++ t :: rest).filter (·.owner == n) := by
  have hnone : ts.filter (·.owner == n) = [] :=
    filter_owner_eq_nil fun v hv he => hn (he.symm.trans (hts v hv))
  rw [← List.singleton_append, ← List.append_assoc, List.filter_append,
    List.filter_append, hnone, List.append_nil, ← List.filter_append,
    List.append_assoc, List.singleton_append]

/-- And a new file has no others. -/
theorem filter_owner_new (hts : ∀ v ∈ ts, v.owner = new)
    (hold : ∀ v ∈ pre ++ t :: rest, v.owner < new) :
    (pre ++ t :: ts ++ rest).filter (·.owner == new) = ts := by
  have hall : ts.filter (·.owner == new) = ts :=
    List.filter_eq_self.2 fun v hv => beq_iff_eq.2 (hts v hv)
  have hpre : (pre ++ [t]).filter (·.owner == new) = [] :=
    filter_owner_eq_nil fun v hv => Nat.ne_of_lt (hold v (by
      rw [← List.singleton_append, ← List.append_assoc]
      exact List.mem_append_left _ hv))
  have hrest : rest.filter (·.owner == new) = [] :=
    filter_owner_eq_nil fun v hv => Nat.ne_of_lt (hold v
      (List.mem_append_right _ (List.mem_cons_of_mem _ hv)))
  rw [← List.singleton_append, ← List.append_assoc, List.filter_append,
    List.filter_append, hall, hpre, hrest, List.nil_append, List.append_nil]

end NewFile

-- ================================================================== blocks

/-- The tokens of a sort stand together, in the middle of three lists. -/
structure Enclosed (p : Token → Prop) (before block after : List Token) :
    Prop where
  inside : ∀ v ∈ block, p v
  outside : ∀ v ∈ before ++ after, ¬ p v

namespace Enclosed

variable {p q : Token → Prop} {before block after pre post mid : List Token}
  {t : Token}

theorem congr (h : Enclosed p before block after)
    (hpq : ∀ v ∈ before ++ block ++ after, p v ↔ q v) :
    Enclosed q before block after := by
  refine ⟨fun v hv => (hpq v ?_).1 (h.inside v hv), fun v hv hq =>
    h.outside v hv ((hpq v ?_).2 hq)⟩
  · exact List.mem_append_left _ (List.mem_append_right _ hv)
  · rcases List.mem_append.1 hv with hv | hv
    · exact List.mem_append_left _ (List.mem_append_left _ hv)
    · exact List.mem_append_right _ hv

/-- A token past the first list gives way to tokens of its own sort. -/
theorem giveWay (h : Enclosed p before block after)
    (hts : before ++ block ++ after = pre ++ t :: post)
    (hle : before.length ≤ pre.length) (hmid : ∀ v ∈ mid, p v ↔ p t) :
    ∃ block' after', pre ++ mid ++ post = before ++ block' ++ after'
      ∧ Enclosed p before block' after' := by
  rw [List.append_assoc] at hts
  obtain ⟨pre', rfl⟩ : before <+: pre :=
    List.prefix_of_prefix_length_le ⟨_, hts⟩ ⟨_, rfl⟩ hle
  rw [List.append_assoc, List.append_cancel_left_eq] at hts
  have hbefore : ∀ v ∈ before, ¬ p v :=
    fun v hv => h.outside v (List.mem_append_left _ hv)
  have hafter : ∀ v ∈ after, ¬ p v :=
    fun v hv => h.outside v (List.mem_append_right _ hv)
  have hwithin : ∀ {inner : List Token}, block = pre' ++ t :: inner →
      post = inner ++ after →
      ∃ block' after', before ++ pre' ++ mid ++ post
          = before ++ block' ++ after' ∧ Enclosed p before block' after' := by
    rintro inner rfl rfl
    have ht : p t :=
      h.inside t (List.mem_append_right _ List.mem_cons_self)
    refine ⟨pre' ++ mid ++ inner, after, ?_, fun v hv => ?_, h.outside⟩
    · simp only [List.append_assoc]
    · rcases List.mem_append.1 hv with hv | hv
      · rcases List.mem_append.1 hv with hv | hv
        · exact h.inside v (List.mem_append_left _ hv)
        · exact (hmid v hv).2 ht
      · exact h.inside v
          (List.mem_append_right _ (List.mem_cons_of_mem _ hv))
  have hbeyond : ∀ {inner : List Token}, pre' = block ++ inner →
      after = inner ++ t :: post →
      ∃ block' after', before ++ pre' ++ mid ++ post
          = before ++ block' ++ after' ∧ Enclosed p before block' after' := by
    rintro inner rfl rfl
    have ht : ¬ p t :=
      hafter t (List.mem_append_right _ List.mem_cons_self)
    refine ⟨block, inner ++ mid ++ post, ?_, h.inside, fun v hv => ?_⟩
    · simp only [List.append_assoc]
    · rcases List.mem_append.1 hv with hv | hv
      · exact hbefore v hv
      · rcases List.mem_append.1 hv with hv | hv
        · rcases List.mem_append.1 hv with hv | hv
          · exact hafter v (List.mem_append_left _ hv)
          · exact fun hp => ht ((hmid v hv).1 hp)
        · exact hafter v
            (List.mem_append_right _ (List.mem_cons_of_mem _ hv))
  rcases List.append_eq_append_iff.1 hts with
    ⟨inner, hpre, hrest⟩ | ⟨inner, hblock, hrest⟩
  · exact hbeyond hpre hrest
  · cases inner with
    | nil =>
        have hpre : pre' = block ++ [] := by
          rw [hblock, List.append_nil, List.append_nil]
        exact hbeyond hpre hrest.symm
    | cons v inner =>
        obtain ⟨rfl, hpost⟩ := List.cons.inj hrest
        exact hwithin hblock hpost

end Enclosed

end Parse

end AblOutline
