/-
The expansion at one position, round by round. In each round the reference that
stands there gives way to the tokens of its value:

    {&x} {&y} .     x is empty          0 filled
    {&y} .          y is {&z}1          0 filled
    {&z} 1 .        z is {&z}           1 filled
    {&z} 1 .        ..                  2 filled

A value that puts tokens in counts, and only so many of these are put in. A
value that is empty does not count, but leaves the stream shorter. So the rounds
come to an end from every state, also where names refer to themselves or to each
other (`next?_wellFounded`), and the expansion is what comes out when no further
round can be made (`expandAt_bounded`).
-/
import AblOutline.Proofs.Stream

namespace AblOutline

namespace Parse

open Preprocess

-- ================================================================== the loop

/-- The token at a position ahead, if the stream reaches so far. -/
def State.standing? (s : State) (a : Ahead) : Option Token :=
  s.source.cursor.ahead[a.skipped]?

/-- What the rounds at one position lead to: a state, and how many of the values
that were put in are not empty. -/
structure Rounds where
  state : State
  filled : Nat

/-- One more round at `a`. There is none when the token that stands there is no
reference, or when `depth` values have been put in. -/
def Rounds.next? (platform : Platform) (a : Ahead) (depth : Nat)
    (r : Rounds) : Option Rounds :=
  match r.state.standing? a with
  | none => none
  | some t =>
    if t.kind = .reference ∧ r.filled < depth then
      some {
        state := r.state.substitute platform a t
        filled :=
          if (r.state.valueTokens platform t).isEmpty then r.filled
          else r.filled + 1 }
    else none

/-- A reference and the tokens that took its place. -/
structure Replacement where
  reference : Token
  value : List Token

/-- The value puts tokens in. -/
def Replacement.fills (p : Replacement) : Bool := !p.value.isEmpty

/-- Rounds one after the other, with what is replaced in each. -/
inductive Go (platform : Platform) (a : Ahead) (depth : Nat) :
    Rounds → List Replacement → Rounds → Prop where
  | stay (r : Rounds) : Go platform a depth r [] r
  | round {r r' r'' : Rounds} {t : Token} {ps : List Replacement}
      (hstands : r.state.standing? a = some t)
      (hnext : r.next? platform a depth = some r')
      (h : Go platform a depth r' ps r'') :
      Go platform a depth r (⟨t, r.state.valueTokens platform t⟩ :: ps) r''

/-- How a position is expanded, and what is replaced there. Nothing is done
where it was done before. Else rounds are made until there is none to make, and
then, where `includes` says so, a file is put in. -/
inductive Expansion (env : Environment) (a : Ahead) (includes : Bool)
    (s : State) : List Replacement → State → Prop where
  | handled (h : s.isExpanded a = true) : Expansion env a includes s [] s
  | rounds {ps : List Replacement} {r : Rounds} (h : s.isExpanded a = false)
      (hgo : Go env.options.platform a env.options.maxExpansionDepth
        ⟨s, 0⟩ ps r)
      (hend : r.next? env.options.platform a env.options.maxExpansionDepth
        = none) :
      Expansion env a includes s ps
        (if includes then (r.state.expandInclude env a).markExpanded a
          else r.state)

-- ================================================================= one round

section Round

variable {platform : Platform} {a : Ahead} {depth : Nat} {r r' r'' : Rounds}
  {ps : List Replacement} {s : State} {t : Token}

theorem standing?_eq_some {rest : List Token} :
    s.source.cursor.ahead.drop a.skipped = t :: rest →
      s.standing? a = some t := by
  intro h
  unfold State.standing?
  rw [← List.head?_drop, h]
  rfl

theorem exists_of_standing? (h : s.standing? a = some t) :
    ∃ rest, s.source.cursor.ahead.drop a.skipped = t :: rest := by
  unfold State.standing? at h
  rw [← List.head?_drop] at h
  exact List.head?_eq_some_iff.1 h

theorem Rounds.next?_of_standing? (hstands : r.state.standing? a = some t)
    (hk : t.kind = .reference) (hlt : r.filled < depth) :
    r.next? platform a depth
      = some ⟨r.state.substitute platform a t,
          if (r.state.valueTokens platform t).isEmpty then r.filled
          else r.filled + 1⟩ := by
  unfold Rounds.next?
  rw [hstands]
  exact if_pos ⟨hk, hlt⟩

/-- What a round does. -/
theorem Rounds.next?_cases (h : r.next? platform a depth = some r') :
    ∃ t rest, r.state.source.cursor.ahead.drop a.skipped = t :: rest
      ∧ t.kind = .reference ∧ r.filled < depth
      ∧ r' = ⟨r.state.substitute platform a t,
          if (r.state.valueTokens platform t).isEmpty then r.filled
          else r.filled + 1⟩ := by
  unfold Rounds.next? at h
  cases hstands : r.state.standing? a with
  | none =>
      rw [hstands] at h
      cases h
  | some t =>
      rw [hstands] at h
      dsimp only at h
      split at h
      · rename_i hmay
        obtain ⟨rest, hrest⟩ := exists_of_standing? hstands
        exact ⟨t, rest, hrest, hmay.1, hmay.2, (Option.some.inj h).symm⟩
      · cases h

/-- No further round: something else stands there, or the limit is reached. -/
theorem Rounds.next?_eq_none_iff :
    r.next? platform a depth = none
      ↔ (r.filled < depth →
        ∀ t, r.state.standing? a = some t → t.kind ≠ .reference) := by
  constructor
  · intro h hlt t hstands hk
    rw [next?_of_standing? hstands hk hlt] at h
    cases h
  · intro hstop
    cases hnext : r.next? platform a depth with
    | none => rfl
    | some r' =>
        obtain ⟨t, rest, hdrop, hk, hlt, -⟩ := next?_cases hnext
        exact absurd hk (hstop hlt t (standing?_eq_some hdrop))

/-- One token less, and those of the value more. -/
theorem Rounds.next?_length (hstands : r.state.standing? a = some t)
    (h : r.next? platform a depth = some r') :
    r'.state.source.cursor.ahead.length + 1
      = r.state.source.cursor.ahead.length
        + (r.state.valueTokens platform t).length := by
  obtain ⟨u, rest, hdrop, -, -, rfl⟩ := Rounds.next?_cases h
  obtain rfl : u = t :=
    Option.some.inj ((standing?_eq_some hdrop).symm.trans hstands)
  obtain ⟨htake, hsplice, -⟩ :=
    drop_splice a hdrop (r.state.valueTokens platform u)
  have hlength := congrArg List.length hdrop
  rw [List.length_drop, List.length_cons] at hlength
  dsimp only
  rw [substitute_cursor, hsplice]
  simp only [List.length_append, htake]
  omega

/-- The tokens before a position. -/
def before (s : State) (a : Ahead) : List Token × List Token :=
  (s.source.cursor.passed, s.source.cursor.ahead.take a.skipped)

theorem Rounds.next?_before (h : r.next? platform a depth = some r') :
    before r'.state a = before r.state a := by
  obtain ⟨t, rest, hdrop, -, -, rfl⟩ := Rounds.next?_cases h
  obtain ⟨htake, hsplice, -⟩ :=
    drop_splice a hdrop (r.state.valueTokens platform t)
  unfold before
  dsimp only
  rw [substitute_cursor, hsplice, List.append_assoc,
    List.take_left' htake]

theorem Rounds.next?_beyond (h : r.next? platform a depth = some r') :
    r'.state.source.cursor.beyond = r.state.source.cursor.beyond := by
  obtain ⟨t, rest, hdrop, -, -, rfl⟩ := Rounds.next?_cases h
  obtain ⟨-, hsplice, -⟩ :=
    drop_splice a hdrop (r.state.valueTokens platform t)
  dsimp only
  rw [substitute_cursor, hsplice]

/-- The rounds end: each leaves fewer values to put in, or as many and a shorter
stream. -/
theorem Rounds.next?_wellFounded (platform : Platform) (a : Ahead)
    (depth : Nat) :
    WellFounded fun r' r : Rounds => r.next? platform a depth = some r' := by
  let left (r : Rounds) : Nat × Nat :=
    (depth - r.filled, r.state.source.cursor.ahead.length)
  refine Subrelation.wf (r := InvImage (Prod.Lex (· < ·) (· < ·)) left) ?_
    (InvImage.wf left (Prod.lex Nat.lt_wfRel Nat.lt_wfRel).wf)
  intro r' r h
  obtain ⟨t, rest, hdrop, -, hlt, hr'⟩ := Rounds.next?_cases h
  have hlength := Rounds.next?_length (standing?_eq_some hdrop) h
  show Prod.Lex _ _ (left r') (left r)
  by_cases hempty : (r.state.valueTokens platform t).isEmpty = true
  · have hfilled : r'.filled = r.filled := by
      rw [hr']
      exact if_pos hempty
    have hshort : (left r').2 < (left r).2 := by
      rw [List.isEmpty_iff.1 hempty, List.length_nil] at hlength
      show r'.state.source.cursor.ahead.length
        < r.state.source.cursor.ahead.length
      omega
    have hsame : (left r').1 = (left r).1 := by
      show depth - r'.filled = depth - r.filled
      rw [hfilled]
    exact Prod.lex_def.2 (Or.inr ⟨hsame, hshort⟩)
  · have hfilled : r'.filled = r.filled + 1 := by
      rw [hr']
      exact if_neg hempty
    have hfewer : (left r').1 < (left r).1 := by
      show depth - r'.filled < depth - r.filled
      omega
    exact Prod.lex_def.2 (Or.inl hfewer)

end Round

-- ================================================================ all rounds

namespace Go

variable {platform : Platform} {a : Ahead} {depth : Nat} {r r' r'' : Rounds}
  {ps qs : List Replacement}

theorem trans (h : Go platform a depth r ps r')
    (h' : Go platform a depth r' qs r'') :
    Go platform a depth r (ps ++ qs) r'' := by
  induction h with
  | stay r => exact h'
  | round hstands hnext _ ih => exact .round hstands hnext (ih h')

/-- The values that put tokens in are counted, and never too many. -/
theorem filled (h : Go platform a depth r ps r') :
    r'.filled = r.filled + ps.countP Replacement.fills
      ∧ (r.filled ≤ depth → r'.filled ≤ depth) := by
  induction h with
  | stay r => exact ⟨rfl, id⟩
  | @round r r' r'' t ps hstands hnext _ ih =>
      obtain ⟨u, rest, hdrop, -, hlt, rfl⟩ := Rounds.next?_cases hnext
      obtain rfl : u = t :=
        Option.some.inj ((standing?_eq_some hdrop).symm.trans hstands)
      dsimp only at ih
      cases hempty : (r.state.valueTokens platform u).isEmpty with
      | true =>
          have hfills : ¬ (⟨u, r.state.valueTokens platform u⟩
              : Replacement).fills = true := by
            simp [Replacement.fills, hempty]
          rw [hempty, if_pos rfl] at ih
          rw [List.countP_cons_of_neg hfills]
          exact ih
      | false =>
          have hfills : (⟨u, r.state.valueTokens platform u⟩
              : Replacement).fills = true := by
            simp [Replacement.fills, hempty]
          rw [hempty, if_neg Bool.false_ne_true] at ih
          rw [List.countP_cons_of_pos hfills]
          omega

/-- Each round takes one token out of the stream and puts its value in. -/
theorem length (h : Go platform a depth r ps r') :
    ps.length + (r'.state.source.cursor.ahead.drop a.skipped).length
      = (r.state.source.cursor.ahead.drop a.skipped).length
        + (ps.flatMap (·.value)).length := by
  induction h with
  | stay r => simp
  | round hstands hnext _ ih =>
      have hone := Rounds.next?_length hstands hnext
      obtain ⟨t, rest, hdrop, -, -, rfl⟩ := Rounds.next?_cases hnext
      have hlength := congrArg List.length hdrop
      simp only [List.length_drop, List.length_cons, List.flatMap_cons,
        List.length_append] at hlength ih hone ⊢
      omega

theorem before_eq (h : Go platform a depth r ps r') :
    before r'.state a = before r.state a
      ∧ r'.state.source.cursor.beyond = r.state.source.cursor.beyond := by
  induction h with
  | stay r => exact ⟨rfl, rfl⟩
  | round _ hnext _ ih =>
      exact ⟨ih.1.trans (Rounds.next?_before hnext),
        ih.2.trans (Rounds.next?_beyond hnext)⟩

/-- The rounds can go but one way. -/
theorem unique (h : Go platform a depth r ps r')
    (hend : r'.next? platform a depth = none)
    (h' : Go platform a depth r qs r'')
    (hend' : r''.next? platform a depth = none) : qs = ps ∧ r'' = r' := by
  induction h generalizing qs with
  | stay r =>
      cases h' with
      | stay => exact ⟨rfl, rfl⟩
      | round _ hnext _ =>
          rw [hnext] at hend
          cases hend
  | round hstands hnext _ ih =>
      cases h' with
      | stay =>
          rw [hnext] at hend'
          cases hend'
      | round hstands' hnext' h' =>
          obtain rfl := Option.some.inj (hstands.symm.trans hstands')
          obtain rfl := Option.some.inj (hnext.symm.trans hnext')
          obtain ⟨rfl, rfl⟩ := ih hend h'
          exact ⟨rfl, rfl⟩

end Go

-- ================================================================== settling

section Settling

variable (platform : Platform) (a : Ahead) {depth : Nat} (s : State)

/-- The references of a row are replaced one by one, up to the first that puts
tokens in. -/
theorem substituteFirst_go (ts : List Token) {rest : List Token} {n : Nat}
    (h : s.source.cursor.ahead.drop a.skipped = ts ++ rest)
    (hk : ∀ t ∈ ts, t.kind = .reference)
    (hrest : ∀ t ∈ rest.head?, t.kind ≠ .reference) (hlt : n < depth) :
    ∃ ps, Go platform a depth ⟨s, n⟩ ps
        ⟨(s.substituteFirst platform a ts).1,
          if (s.substituteFirst platform a ts).2 then n + 1 else n⟩
      ∧ ((s.substituteFirst platform a ts).2 = false →
        ∀ t, (s.substituteFirst platform a ts).1.standing? a = some t →
          t.kind ≠ .reference) := by
  induction ts generalizing s with
  | nil =>
      refine ⟨[], .stay _, fun _ t ht => hrest t ?_⟩
      obtain ⟨more, hmore⟩ := exists_of_standing? ht
      rw [List.nil_append] at h
      have hsame : rest = t :: more := h.symm.trans hmore
      rw [hsame]
      rfl
  | cons t ts ih =>
      have hstands := standing?_eq_some h
      have hnext : (⟨s, n⟩ : Rounds).next? platform a depth = some _ :=
        Rounds.next?_of_standing? hstands (hk t List.mem_cons_self) hlt
      have hdrop := substitute_drop platform s a h
      unfold State.substituteFirst
      dsimp only at hnext ⊢
      cases hempty : (s.valueTokens platform t).isEmpty with
      | true =>
          -- the next reference of the row stands at `a` now
          rw [List.isEmpty_iff.1 hempty] at hdrop
          obtain ⟨ps, hgo, hend⟩ := ih (s.substitute platform a t) hdrop
            fun u hu => hk u (List.mem_cons_of_mem _ hu)
          rw [hempty, if_pos rfl] at hnext
          exact ⟨_, .round hstands hnext hgo, hend⟩
      | false =>
          rw [hempty, if_neg Bool.false_ne_true] at hnext
          refine ⟨_, .round hstands hnext (.stay _), fun hfull => ?_⟩
          cases hfull

theorem settle_go {n m : Nat} (hsum : n + m = depth) :
    ∃ ps k, Go platform a depth ⟨s, n⟩ ps ⟨s.settle platform a m, k⟩
      ∧ (⟨s.settle platform a m, k⟩ : Rounds).next? platform a depth
        = none := by
  induction m generalizing s n with
  | zero =>
      refine ⟨[], n, .stay _, Rounds.next?_eq_none_iff.2 ?_⟩
      intro hlt
      dsimp only at hlt
      omega
  | succ m ih =>
      obtain ⟨rest, hsplit, hrow, hother⟩ := exists_append_referencesAt s a
      have hlt : n < depth := by omega
      obtain ⟨ps, hgo, hend⟩ := substituteFirst_go platform a s
        (s.referencesAt a) hsplit hrow hother hlt
      unfold State.settle
      cases hfirst : s.substituteFirst platform a (s.referencesAt a) with
      | mk u full =>
          rw [hfirst] at hgo hend
          cases full with
          | true =>
              have hsum' : n + 1 + m = depth := by omega
              obtain ⟨qs, k, hmore, hnext⟩ := ih u hsum'
              exact ⟨ps ++ qs, k, hgo.trans hmore, hnext⟩
          | false =>
              exact ⟨ps, n, hgo,
                Rounds.next?_eq_none_iff.2 fun _ => hend rfl⟩

end Settling

-- ================================================================== one place

section Place

variable {env : Environment} {a : Ahead} {includes : Bool} {s : State}

/-- A file is put in behind its directive. -/
theorem includeAt_before (env : Environment) (s : State) (a : Ahead)
    {t : Token} (h : s.standing? a = some t) :
    before (s.includeAt env a t) a = before s a
      ∧ (s.includeAt env a t).standing? a = some t := by
  have hlt : a.skipped < s.source.cursor.ahead.length :=
    (List.getElem?_eq_some_iff.1 h).1
  have hstay : ∀ {u : State}, u.source.cursor = s.source.cursor →
      before u a = before s a ∧ u.standing? a = some t := by
    intro u hu
    unfold before State.standing?
    rw [hu]
    exact ⟨rfl, h⟩
  unfold State.includeAt
  split
  · exact hstay rfl
  split
  · exact hstay rfl
  rename_i call _
  obtain ⟨hcursor, -⟩ :=
    openInclude_stream env.resolver s.source call.file t.owner
  dsimp only
  generalize State.openInclude env.resolver s.source call.file t.owner
    = opened at hcursor ⊢
  obtain ⟨path, tokens, source⟩ := opened
  dsimp only at hcursor ⊢
  cases tokens with
  | none => exact hstay hcursor
  | some tokens =>
      have hlen : (s.source.cursor.ahead.take (a.skipped + 1)).length
          = a.skipped + 1 := List.length_take_of_le hlt
      unfold before State.standing?
      simp only [State.addItem, State.addItemIn, Cursor.insert, Ahead.next,
        hcursor, List.append_assoc]
      refine ⟨?_, ?_⟩
      · rw [List.take_append_of_le_length (by omega), List.take_take]
        simp
      · rw [List.getElem?_append_left (by omega),
          List.getElem?_take_of_lt (by omega)]
        exact h

/-- What the end mark is seen for is no file. -/
theorem expandInclude_before (env : Environment) (a : Ahead)
    (hbeyond : s.source.cursor.beyond.isEof = true) :
    before (s.expandInclude env a) a = before s a
      ∧ ((s.expandInclude env a).standing? a = s.standing? a) := by
  have hpeek : s.source.cursor.peekAhead a
      = (s.standing? a).getD s.source.cursor.beyond := rfl
  unfold State.expandInclude
  dsimp only
  rw [hpeek]
  cases hstands : s.standing? a with
  | none =>
      have hkind : s.source.cursor.beyond.kind ≠ .inclusion := by
        intro hk
        simp [Token.isEof, hk] at hbeyond
      rw [Option.getD_none, if_neg hkind]
      exact ⟨rfl, hstands⟩
  | some t =>
      rw [Option.getD_some]
      split
      · exact includeAt_before env s a hstands
      · exact ⟨rfl, hstands⟩

/-- The stream before a position tells each of its tokens. -/
theorem getElem?_tokens_of_before {s' : State} {i : Nat}
    (h : before s' a = before s a) (hi : i < s.source.cursor.indexOf a) :
    s'.source.cursor.tokens[i]? = s.source.cursor.tokens[i]? := by
  obtain ⟨hpassed, htake⟩ := Prod.mk.inj h
  have hlt : i < s.source.cursor.passed.length + a.skipped :=
    Nat.lt_of_lt_of_le hi (Nat.min_le_left _ _)
  have hsplit : ∀ c : Cursor, i < c.passed.length + a.skipped →
      c.tokens[i]? = (c.passed.reverse ++ c.ahead.take a.skipped)[i]? := by
    intro c hc
    unfold Cursor.tokens
    rw [List.getElem?_append, List.getElem?_append]
    split
    · rfl
    · rename_i hge
      rw [List.length_reverse] at hge ⊢
      rw [List.getElem?_take_of_lt (by omega)]
  rw [hsplit _ (by rw [hpassed]; exact hlt), hsplit _ hlt, hpassed, htake]

/-- A position is expanded in rounds that come to an end. -/
theorem expandAt_expansion (env : Environment) (s : State) (a : Ahead)
    (includes : Bool) :
    ∃ ps, Expansion env a includes s ps (s.expandAt env a includes) := by
  cases hexpanded : s.isExpanded a with
  | true =>
      have hsame : s.expandAt env a includes = s := by
        unfold State.expandAt
        rw [if_pos hexpanded]
      rw [hsame]
      exact ⟨[], .handled hexpanded⟩
  | false =>
      obtain ⟨ps, k, hgo, hend⟩ := settle_go env.options.platform a s
        (n := 0) (Nat.zero_add env.options.maxExpansionDepth)
      unfold State.expandAt
      rw [hexpanded, if_neg Bool.false_ne_true]
      exact ⟨ps, .rounds hexpanded hgo hend⟩

/-- The expansion at a position can go but one way. -/
theorem Expansion.unique {ps qs : List Replacement} {u v : State}
    (h : Expansion env a includes s ps u)
    (h' : Expansion env a includes s qs v) : qs = ps ∧ v = u := by
  cases h with
  | handled hexpanded =>
      cases h' with
      | handled => exact ⟨rfl, rfl⟩
      | rounds hnot =>
          rw [hexpanded] at hnot
          cases hnot
  | rounds hnot hgo hend =>
      cases h' with
      | handled hexpanded =>
          rw [hexpanded] at hnot
          cases hnot
      | rounds _ hgo' hend' =>
          obtain ⟨rfl, rfl⟩ := hgo.unique hend hgo' hend'
          exact ⟨rfl, rfl⟩

/-- How much is replaced at a position. -/
theorem Expansion.length {ps : List Replacement} {u : State}
    (h : Expansion env a includes s ps u) :
    ps.countP Replacement.fills ≤ env.options.maxExpansionDepth
      ∧ ps.length = ps.countP Replacement.fills + ps.countP (·.value.isEmpty)
      ∧ ps.length ≤ (s.source.cursor.ahead.drop a.skipped).length
        + (ps.flatMap (·.value)).length := by
  have hsplit : ps.length
      = ps.countP Replacement.fills + ps.countP (·.value.isEmpty) := by
    rw [List.length_eq_countP_add_countP Replacement.fills]
    congr 1
    exact List.countP_congr fun p _ => by simp [Replacement.fills]
  cases h with
  | handled => exact ⟨Nat.zero_le _, hsplit, Nat.zero_le _⟩
  | rounds _ hgo =>
      obtain ⟨hcount, hle⟩ := hgo.filled
      have hmost := hle (Nat.zero_le _)
      have hlength := hgo.length
      dsimp only at hcount hlength
      exact ⟨by omega, hsplit, by omega⟩

/-- What the expansion of a position leaves there and before it. -/
theorem Expansion.leaves {ps : List Replacement} {u : State}
    (hbeyond : s.source.cursor.beyond.isEof = true)
    (h : Expansion env a includes s ps u) :
    before u a = before s a
      ∧ ∀ t, u.standing? a = some t → t.kind = .reference →
        s.isExpanded a = true
          ∨ ps.countP Replacement.fills = env.options.maxExpansionDepth := by
  cases h with
  | handled hexpanded => exact ⟨rfl, fun _ _ _ => Or.inl hexpanded⟩
  | @rounds ps r hnot hgo hend =>
      obtain ⟨hcount, hle⟩ := hgo.filled
      obtain ⟨hbefore, hsame⟩ := hgo.before_eq
      have hfull : ∀ t, r.state.standing? a = some t → t.kind = .reference →
          ps.countP Replacement.fills = env.options.maxExpansionDepth := by
        intro t ht hk
        have hmost := hle (Nat.zero_le _)
        have hge : ¬ r.filled < env.options.maxExpansionDepth := fun hlt =>
          Rounds.next?_eq_none_iff.1 hend hlt t ht hk
        dsimp only at hcount
        omega
      cases includes with
      | false => exact ⟨hbefore, fun t ht hk => Or.inr (hfull t ht hk)⟩
      | true =>
          obtain ⟨hinclude, hstands⟩ :=
            expandInclude_before env a (hsame.symm ▸ hbeyond)
          refine ⟨hinclude.trans hbefore, fun t ht hk => Or.inr ?_⟩
          exact hfull t (hstands.symm.trans ht) hk

/-- The expansion at a position ends, from every state; what a cursor sees
beyond the stream is an end mark (`Cursor.ofTokens`). It puts in at most
`maxExpansionDepth` values that are not empty, and takes each reference with an
empty value out once. A reference stands there afterwards only where the
position was expanded before, or as many values were put in as may be; and no
token before it is another one. -/
theorem expandAt_bounded (env : Environment) (a : Ahead) (includes : Bool)
    {s : State} (hbeyond : s.source.cursor.beyond.isEof = true) :
    (WellFounded fun r' r : Rounds => r.next? env.options.platform a
        env.options.maxExpansionDepth = some r')
      ∧ ∃ ps, Expansion env a includes s ps (s.expandAt env a includes)
        ∧ (∀ qs u, Expansion env a includes s qs u →
          qs = ps ∧ u = s.expandAt env a includes)
        ∧ ps.countP Replacement.fills ≤ env.options.maxExpansionDepth
        ∧ ps.length = ps.countP Replacement.fills + ps.countP (·.value.isEmpty)
        ∧ ps.length ≤ (s.source.cursor.ahead.drop a.skipped).length
          + (ps.flatMap (·.value)).length
        ∧ (∀ t, (s.expandAt env a includes).standing? a = some t →
          t.kind = .reference → s.isExpanded a = true
            ∨ ps.countP Replacement.fills = env.options.maxExpansionDepth)
        ∧ ∀ i < s.source.cursor.indexOf a,
          (s.expandAt env a includes).source.cursor.tokens[i]?
            = s.source.cursor.tokens[i]? := by
  obtain ⟨ps, hps⟩ := expandAt_expansion env s a includes
  obtain ⟨hbefore, hleft⟩ := hps.leaves hbeyond
  obtain ⟨hmost, hsplit, hlength⟩ := hps.length
  exact ⟨Rounds.next?_wellFounded _ _ _, ps, hps, fun qs u h => hps.unique h,
    hmost, hsplit, hlength, hleft,
    fun i hi => getElem?_tokens_of_before hbefore hi⟩

/-- Two arguments that refer to each other, behind a name without a value: the
rounds end with a reference left, since all values that may be are put in. -/
theorem expandAt_bounded_circle :
    let file : ChainFile :=
      { name := "a.i", path := none, trigger := none, parent := none
        rootLine := 0
        arguments := { named := [("x", "{&y}"), ("y", "{&x}")] } }
    let s : State :=
      { source := { cursor := .ofTokens (tokenize "{&n}{&x}.")
                    chain := ⟨#[file]⟩, cache := {} } }
    s.source.cursor.beyond.isEof = true ∧ s.isExpanded .nearest = false
      ∧ (∃ ps, Expansion {} .nearest true s ps (s.expandAt {} .nearest true)
        ∧ ps.countP Replacement.fills = 64)
      ∧ ((s.expandAt {} .nearest true).standing? .nearest).map (·.text)
        = some "{&x}" := by
  intro file s
  have hbeyond : s.source.cursor.beyond.isEof = true := by decide +kernel
  have hnot : s.isExpanded .nearest = false := rfl
  have hleft : ((s.expandAt {} .nearest true).standing? .nearest).map
      (fun t => (t.kind, t.text)) = some (.reference, "{&x}") := by
    decide +kernel
  obtain ⟨t, ht, hpair⟩ := Option.map_eq_some_iff.1 hleft
  obtain ⟨hk, htext⟩ := Prod.mk.inj hpair
  obtain ⟨-, ps, hps, -, -, -, -, hfull, -⟩ :=
    expandAt_bounded {} .nearest true hbeyond
  refine ⟨hbeyond, hnot, ⟨ps, hps, ?_⟩, ?_⟩
  · refine (hfull t ht hk).resolve_left ?_
    rw [hnot]
    exact Bool.false_ne_true
  · rw [ht, Option.map_some, htext]

end Place

end Parse

end AblOutline
