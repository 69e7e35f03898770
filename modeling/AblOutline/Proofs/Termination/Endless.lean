/-
A value that brings itself in again. Read again, it is a comment, and then a
reference to the name that it is the value of (`Revives`):

    &SCOPED-DEFINE a /{&u}*"*/{&a}"      nothing defines u, the value is /*"*/{&a}"
    {&a}                                 a comment, {&a} and a string

The limit on expansion counts the values that are put in at one place. Here it
stops at the comment, and the same reference stands at the next place, where the
count starts again (`Reviving.expandAt`). So what expands one token after the
other never comes to the end, as a condition does (`readCondition_reviving`).
-/
import AblOutline.Proofs.Termination.Reading
import Mathlib.Tactic.MkIffOfInductiveProp

namespace AblOutline.Parse

open Preprocess

-- ================================================================== values

/-- Read again, the value is a comment and then a reference to the name. -/
structure Revives (name value : String) : Prop where
  kinds : ((tokenizeFragment value 0).take 2).map (·.kind) = [.comment, .reference]
  name : (tokenizeFragment value 0)[1]?.map (referenceName ·.text) = some name

/-- The token is a reference to the name, in that file. -/
def IsReferenceTo (name : String) (owner : Nat) (t : Token) : Prop :=
  t.kind = .reference ∧ referenceName t.text = name ∧ t.owner = owner

instance (name : String) (owner : Nat) (t : Token) :
    Decidable (IsReferenceTo name owner t) :=
  inferInstanceAs (Decidable (_ ∧ _))

/-- At `a` stands a reference, not expanded yet, to a name that has the value
in its file. -/
@[mk_iff]
structure Reviving (name value : String) (owner : Nat) (a : Ahead) (s : State) :
    Prop where
  meaning : s.source.meaning? name owner = some (.value value)
  reference : ∃ r ∈ s.source.cursor.ahead[a.skipped]?, IsReferenceTo name owner r
  fresh : s.source.expanded ≤ a.skipped

instance (name value : String) (owner : Nat) (a : Ahead) (s : State) :
    Decidable (Reviving name value owner a s) :=
  decidable_of_iff _ (reviving_iff name value owner a s).symm

section Values

variable {name value : String} {owner : Nat} {platform : Platform} {a : Ahead}
  {s : State} {r : Token} {rest : List Token}

/-- The tokens of the value, in the place of a reference to the name. -/
theorem Revives.tokens (h : Revives name value) (t : Token) :
    ∃ c r rest, (tokenizeFragment value t.owner).map (standingFor t) = c :: r :: rest
      ∧ c.kind = .comment ∧ IsReferenceTo name t.owner r := by
  obtain ⟨hkinds, hname⟩ := h
  obtain ⟨c, more, hc, hcomment, hmore⟩ := List.map_eq_cons_iff.1 hkinds
  obtain ⟨r, none, rfl, hreference, hnone⟩ := List.map_eq_cons_iff.1 hmore
  cases List.map_eq_nil_iff.1 hnone
  have htokens : tokenizeFragment value 0 = c :: r :: (tokenizeFragment value 0).drop 2 := by
    conv => lhs; rw [← List.take_append_drop 2 (tokenizeFragment value 0), hc]
    rfl
  have howned : tokenizeFragment value t.owner
      = (tokenizeFragment value 0).map (·.withOwner t.owner) := by
    unfold tokenizeFragment
    rw [List.map_map]
    rfl
  -- only a line break becomes something else
  have hstands : ∀ x : Token, x.kind ≠ .eol →
      standingFor t (x.withOwner t.owner)
        = { x with start := t.start, range := t.range, owner := t.owner } := by
    intro x hx
    have hkind : (x.withOwner t.owner).kind ≠ .eol := hx
    unfold standingFor
    rw [if_neg hkind]
    rfl
  rw [htokens] at hname howned
  refine ⟨standingFor t (c.withOwner t.owner), standingFor t (r.withOwner t.owner),
    _, by rw [howned]; rfl, ?_, ?_⟩
  · rw [hstands c (by rw [hcomment]; decide)]
    exact hcomment
  · rw [hstands r (by rw [hreference]; decide)]
    exact ⟨hreference, Option.some.inj hname, rfl⟩

theorem valueTokens_of_meaning (platform : Platform)
    (hm : s.source.meaning? name owner = some (.value value))
    (hr : IsReferenceTo name owner r) :
    s.valueTokens platform r = (tokenizeFragment value r.owner).map (standingFor r) := by
  obtain ⟨-, hname, howner⟩ := hr
  obtain ⟨file, hfile, -⟩ := Option.bind_eq_some_iff.1 hm
  have hvalue : s.source.referenceValue? platform (referenceName r.text) r
      = some value := by
    unfold Source.referenceValue?
    rw [hname, howner, hfile]
    exact congrArg (Option.bind · _) hm
  unfold State.valueTokens
  rw [hvalue]
  rfl

end Values

-- =============================================================== expansion

section Expansion

variable {platform : Platform} {a : Ahead} {s : State} {r : Token} {rest : List Token}

/-- A value that begins with no reference is put in, and that is all. -/
theorem settle_eq_substitute {c : Token} {more : List Token} (hr : r.kind = .reference)
    (hahead : s.source.cursor.ahead.drop a.skipped = r :: rest)
    (hvalue : s.valueTokens platform r = c :: more) (hc : c.kind ≠ .reference)
    (depth : Nat) :
    s.settle platform a (depth + 1) = s.substitute platform a r := by
  have hat : s.referencesAt a = r :: rest.takeWhile (·.kind == .reference) := by
    unfold State.referencesAt
    rw [hahead]
    exact List.takeWhile_cons_of_pos (beq_iff_eq.2 hr)
  have hnone : (s.substitute platform a r).referencesAt a = [] := by
    unfold State.referencesAt
    rw [substitute_drop platform s a hahead, hvalue]
    exact List.takeWhile_cons_of_neg fun h => hc (eq_of_beq h)
  have hfirst : s.substituteFirst platform a (s.referencesAt a)
      = (s.substitute platform a r, true) := by
    rw [hat]
    unfold State.substituteFirst
    dsimp only
    rw [hvalue]
    rfl
  unfold State.settle
  rw [hfirst]
  dsimp only
  cases depth with
  | zero => rfl
  | succ depth =>
      unfold State.settle
      rw [hnone]
      rfl

theorem substitute_skip (platform : Platform) (a : Ahead) (t : Token) :
    (s.substitute platform a t).source.skip = s.source.skip := by
  show (s.source.afterReference (referenceName t.text) t.owner).skip = _
  unfold Source.afterReference
  split <;> rfl

variable {env : Environment} {name value : String} {owner : Nat}

/-- The reference is replaced, and is there again behind a comment. -/
theorem Reviving.settle (h : Reviving name value owner a s) (hv : Revives name value)
    (platform : Platform) (depth : Nat) :
    ((s.settle platform a (depth + 1)).source.cursor.peekAhead a).kind = .comment
      ∧ Reviving name value owner a.next (s.settle platform a (depth + 1))
      ∧ (s.settle platform a (depth + 1)).source.skip = s.source.skip := by
  obtain ⟨hmeaning, ⟨r, hat, hr⟩, hfresh⟩ := h
  obtain ⟨hlt, hget⟩ := List.getElem?_eq_some_iff.1 hat
  have hahead : s.source.cursor.ahead.drop a.skipped
      = r :: s.source.cursor.ahead.drop (a.skipped + 1) := by
    rw [List.drop_eq_getElem_cons hlt, hget]
  obtain ⟨c, r', more, hstanding, hc, hr'⟩ := hv.tokens r
  have hvalue := (valueTokens_of_meaning platform hmeaning hr).trans hstanding
  have hsinks := substitute_sinks platform s a hahead hr.1
  have hdrop := substitute_drop platform s a hahead
  rw [settle_eq_substitute hr.1 hahead hvalue (by rw [hc]; decide) depth]
  rw [hvalue] at hdrop
  refine ⟨?_, ⟨?_, ⟨r', ?_, hr.2.2 ▸ hr'⟩, ?_⟩, substitute_skip platform a r⟩
  · unfold Cursor.peekAhead
    rw [← Nat.add_zero a.skipped, ← List.getElem?_drop, hdrop]
    exact hc
  · exact (meaning?_congr hsinks.chain hsinks.definitions name owner).trans hmeaning
  · show (s.substitute platform a r).source.cursor.ahead[a.skipped + 1]? = some r'
    rw [← List.getElem?_drop, hdrop]
    rfl
  · rw [substitute_expanded]
    exact Nat.le_succ_of_le hfresh

/-- A comment is no include directive, so that is all the expansion. -/
theorem Reviving.expandAt (h : Reviving name value owner a s) (hv : Revives name value)
    (hdepth : env.options.maxExpansionDepth ≠ 0) (includes : Bool) :
    ((s.expandAt env a includes).source.cursor.peekAhead a).kind = .comment
      ∧ Reviving name value owner a.next (s.expandAt env a includes)
      ∧ (s.expandAt env a includes).source.skip = s.source.skip := by
  obtain ⟨depth, hmax⟩ := Nat.exists_eq_succ_of_ne_zero hdepth
  have hnot : ¬ s.isExpanded a = true := by
    unfold State.isExpanded
    simpa using h.fresh
  have hsettle := h.settle hv env.options.platform depth
  unfold State.expandAt
  rw [if_neg hnot, hmax]
  dsimp only
  generalize s.settle env.options.platform a (depth + 1) = u at hsettle ⊢
  obtain ⟨hcomment, hnext, hskip⟩ := hsettle
  cases includes with
  | false => exact ⟨hcomment, hnext, hskip⟩
  | true =>
      have hinclude : u.expandInclude env a = u := by
        unfold State.expandInclude
        exact if_neg (by rw [hcomment]; decide)
      rw [if_pos rfl, hinclude]
      exact ⟨hcomment, ⟨hnext.meaning, hnext.reference,
        Nat.max_le.2 ⟨hnext.fresh, Nat.le_refl _⟩⟩, hskip⟩

/-- A condition that goes on is not read when the rest of it is not. -/
theorem readCondition_behind {live : Bool} {steps : Nat}
    (heof : ((lookAt env live a s).source.cursor.peekAhead a).isEof = false)
    (hk : ((lookAt env live a s).source.cursor.peekAhead a).kind ≠ .directive)
    (h : readCondition env live steps a.next (lookAt env live a s) = none) :
    readCondition env live (steps + 1) a s = none := by
  unfold readCondition
  dsimp only
  rw [heof, if_neg Bool.false_ne_true, if_neg hk, h]
  rfl

/-- A condition does not come to its end from there on, whatever the limit on
its steps. -/
theorem readCondition_reviving (hv : Revives name value)
    (hdepth : env.options.maxExpansionDepth ≠ 0) (steps : Nat)
    (h : Reviving name value owner a s) : readCondition env true steps a s = none := by
  induction steps generalizing a s with
  | zero => rfl
  | succ steps ih =>
      obtain ⟨hcomment, hnext, -⟩ := h.expandAt hv hdepth false
      have hlook : lookAt env true a s = s.expandAt env a false := rfl
      rw [← hlook] at hcomment hnext
      exact readCondition_behind (by rw [Token.isEof, hcomment]; rfl)
        (by rw [hcomment]; decide) (ih hnext)

end Expansion

end AblOutline.Parse
