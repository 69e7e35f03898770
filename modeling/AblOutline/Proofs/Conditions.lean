/-
Conditions hold as their grammar says (`holds_derived`). The tree that is read has
the value of the derivation that wrote it (`Derivation.evaluates`): what a tail of a
derivation does with the value before it is what evaluation does with the tree
before it.
-/
import AblOutline.Proofs.Conditions.Derived

namespace AblOutline.Condition

-- ================================================================ values

section Values

variable (platform : Platform) (defined : String → Int64)

/-- The tree has that value; where a tree stands before it, the value comes of the
value of that. -/
def Nonterminal.Evaluates : (n : Nonterminal) → n.Fold Expression Expression →
    n.Fold Value (Option Value) → Prop
  | .or, e, v | .and, e, v | .not, e, v | .comparison, e, v | .sum, e, v
  | .operand, e, v => e.eval? platform defined = v
  | .orMore, e, v | .andMore, e, v | .sumMore, e, v =>
    ∀ left, (e left).eval? platform defined = (left.eval? platform defined).bind v

/-- The tree that a derivation writes has the value of the derivation. -/
theorem Derivation.evaluates {n : Nonterminal} (d : Derivation n) :
    n.Evaluates platform defined d.expression (d.value? platform defined) := by
  induction d with
  | or first more ihFirst ihMore =>
      simp only [Nonterminal.Evaluates, expression, value?] at ihFirst ihMore ⊢
      rw [ihMore, ihFirst]
  | orEnd =>
      intro left
      exact (Option.bind_fun_some _).symm
  | orNext word h next more ihNext ihMore =>
      intro left
      simp only [Nonterminal.Evaluates] at ihNext ihMore
      rw [expression, ihMore, Expression.eval?, ihNext]
      simp only [Option.bind_eq_bind, Option.bind_assoc, value?]
      refine Option.bind_congr fun a _ => Option.bind_congr fun b _ =>
        Option.bind_congr fun x _ => ?_
      cases x with
      | true => rfl
      | false => exact Option.bind_map ..
  | and first more ihFirst ihMore =>
      simp only [Nonterminal.Evaluates, expression, value?] at ihFirst ihMore ⊢
      rw [ihMore, ihFirst]
  | andEnd =>
      intro left
      exact (Option.bind_fun_some _).symm
  | andNext word h next more ihNext ihMore =>
      intro left
      simp only [Nonterminal.Evaluates] at ihNext ihMore
      rw [expression, ihMore, Expression.eval?, ihNext]
      simp only [Option.bind_eq_bind, Option.bind_assoc, value?]
      refine Option.bind_congr fun a _ => Option.bind_congr fun b _ =>
        Option.bind_congr fun x _ => ?_
      cases x with
      | true => exact Option.bind_map ..
      | false => rfl
  | deny word h denied ih =>
      simp only [Nonterminal.Evaluates, expression, value?] at ih ⊢
      rw [Expression.eval?, ih]
      refine Option.bind_congr fun a _ => ?_
      exact (Option.map_eq_bind ..).symm
  | affirm c ih => exact ih
  | single s ih => exact ih
  | compare left operator how h right ihLeft ihRight =>
      simp only [Nonterminal.Evaluates, expression, value?] at ihLeft ihRight ⊢
      rw [Expression.eval?, ihLeft, ihRight]
      rfl
  | sum first more ihFirst ihMore =>
      simp only [Nonterminal.Evaluates, expression, value?] at ihFirst ihMore ⊢
      rw [ihMore, ihFirst]
  | sumEnd =>
      intro left
      exact (Option.bind_fun_some _).symm
  | plus mark h next more ihNext ihMore =>
      intro left
      simp only [Nonterminal.Evaluates] at ihNext ihMore
      rw [expression, ihMore, Expression.eval?, ihNext]
      simp only [Option.bind_eq_bind, Option.bind_assoc, value?]
  | minus mark h next more ihNext ihMore =>
      intro left
      simp only [Nonterminal.Evaluates] at ihNext ihMore
      rw [expression, ihMore, Expression.eval?, ihNext]
      simp only [Option.bind_eq_bind, Option.bind_assoc, value?]
  | number written h => rfl
  | text literal h => rfl
  | group opening ho inner closing hc ih => exact ih
  | negative mark h operand ih =>
      simp only [Nonterminal.Evaluates, expression, value?] at ih ⊢
      rw [Expression.eval?, ih]
  | constant word c h => rfl
  | defined word opening name closing hw ho hn hc => rfl

end Values

-- =============================================================== reading

namespace Expression

/-- What the tokens write is what one derivation of them writes. -/
theorem ofTokens?_eq_some {ts : List Token} {e : Expression} :
    ofTokens? ts = some e
      ↔ ∃ d : Derivation .or, d.tokens = significant ts ∧ d.expression = e := by
  constructor
  · intro h
    unfold ofTokens? at h
    dsimp only at h
    split at h
    · rename_i e' hread
      cases h
      obtain ⟨d, hts, he⟩ := (soundUpTo _).or hread
      rw [List.append_nil] at hts
      exact ⟨d, hts.symm, he.symm⟩
    · cases h
  · rintro ⟨d, hts, rfl⟩
    have hdepth : depthBound (significant ts) = 8 * d.tokens.length + 7 + 1 := by
      rw [hts, depthBound]
      omega
    have hbound : 8 * d.tokens.length + Nonterminal.or.slack
        ≤ 8 * d.tokens.length + 7 + 1 := by
      simp only [Nonterminal.slack]
      omega
    have hread := d.reads hbound (Nonterminal.endsBefore_nil _)
    rw [← hdepth] at hread
    simp only [Nonterminal.Reads, List.append_nil, hts] at hread
    unfold ofTokens?
    dsimp only
    rw [hread]

end Expression

-- ================================================================= truth

section Truth

variable {platform : Platform} {defined : String → Int64} {ts : List Token}

/-- A condition that is derived holds as the value of the derivation says. -/
theorem holds_of_derived {d : Derivation .or}
    (hd : d.tokens = Expression.significant ts) :
    holds platform defined ts
      = ((d.value? platform defined).bind Value.truth?).getD true := by
  have hread := Expression.ofTokens?_eq_some.2 ⟨d, hd, rfl⟩
  have hvalue := d.evaluates platform defined
  rw [Nonterminal.Evaluates] at hvalue
  rw [holds, truth?, hread, ← hvalue]
  rfl

theorem holds_of_not_derived
    (hnone : ∀ d : Derivation .or, d.tokens ≠ Expression.significant ts) :
    holds platform defined ts = true := by
  have hread : Expression.ofTokens? ts = none := by
    refine Option.eq_none_iff_forall_ne_some.2 fun e he => ?_
    obtain ⟨d, hd, -⟩ := Expression.ofTokens?_eq_some.1 he
    exact hnone d hd
  rw [holds, truth?, hread]
  rfl

end Truth

/-- A condition whose tokens with a meaning are derived has one derivation, and
holds as the value of that says, and holds when that is undefined or no truth. Any
other condition holds. -/
theorem holds_derived (platform : Platform) (defined : String → Int64)
    (ts : List Token) :
    (∀ d : Derivation .or, d.tokens = Expression.significant ts →
      (∀ d' : Derivation .or, d'.tokens = Expression.significant ts → d' = d)
        ∧ holds platform defined ts
          = ((d.value? platform defined).bind Value.truth?).getD true)
    ∧ ((∀ d : Derivation .or, d.tokens ≠ Expression.significant ts) →
        holds platform defined ts = true) := by
  refine ⟨fun d hd => ⟨fun d' hd' => ?_, holds_of_derived hd⟩, holds_of_not_derived⟩
  have hends := Nonterminal.endsBefore_nil .or
  exact (d'.tokens_split d hends hends (by rw [hd', hd])).1

/-- `NOT` binds more tightly than `AND`: a denial of the whole would hold here. -/
theorem holds_derived_denial :
    let word (text : String) : Token :=
      { kind := .word, text, start := default, range := default, owner := 0 }
    holds {} (fun _ => 0) [word "NOT", word "YES", word "AND", word "NO"] = false := by
  intro word
  have constant (text : String) (c : Constant) (h : (text, c) ∈ Constant.words) :
      c.IsSpelled (word text) := ⟨text, h, Token.isWord_iff.2 ⟨rfl, rfl⟩⟩
  let yes : Derivation .comparison :=
    .single (.sum (.constant (word "YES") (.truth true) (constant _ _ (by decide))) .sumEnd)
  let no : Derivation .comparison :=
    .single (.sum (.constant (word "NO") (.truth false) (constant _ _ (by decide))) .sumEnd)
  let d : Derivation .or :=
    .or (.and (.deny (word "NOT") (by decide) (.affirm yes))
      (.andNext (word "AND") (by decide) (.affirm no) .andEnd)) .orEnd
  exact ((holds_derived {} (fun _ => 0) _).1 d rfl).2

end AblOutline.Condition
