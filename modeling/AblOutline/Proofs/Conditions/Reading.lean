/-
Conditions are read along their derivations. Every derivation writes one tree
(`Derivation.expression`). Tokens that are derived, and after them something that
cannot continue what is derived, are read as that tree, and reading stops right
there (`Derivation.reads`). Conversely, whatever is read was derived
(`soundUpTo`).

Reading is bounded by a depth of calls: eight for each token, and one more for
each nonterminal that is passed through on the way to the first of them
(`Nonterminal.slack`).
-/
import AblOutline.Condition.Grammar
import AblOutline.Proofs.Letters.Text

namespace AblOutline

open Text

-- ============================================================= spellings

theorem Text.upper_upper (s : String) : upper (upper s) = upper s := by
  rw [← upper_lower (s := upper s), lower_upper, upper_lower]

theorem Token.isWord_iff {t : Token} {word : String} :
    t.isWord word = true ↔ t.kind = .word ∧ upper t.text = upper word := by
  unfold isWord same
  rw [Bool.and_eq_true, beq_iff_eq, beq_iff_eq]
  refine and_congr_right fun _ => ⟨fun h => ?_, fun h => ?_⟩
  · rw [← upper_lower (s := t.text), h, upper_lower]
  · rw [← lower_upper t.text, h, lower_upper]

theorem Token.isSymbol_iff {t : Token} {mark : String} :
    t.isSymbol mark = true ↔ t.kind = .symbol ∧ t.text = mark := by
  unfold isSymbol
  rw [Bool.and_eq_true, beq_iff_eq, beq_iff_eq]

namespace Condition

theorem Comparison.ofToken?_of_isSpelled {t : Token} {how : Comparison}
    (h : how.IsSpelled t) : ofToken? t = some how := by
  unfold ofToken?
  rcases h with ⟨mark, hmark, h⟩ | ⟨word, hword, h⟩
  · obtain ⟨hk, htext⟩ := Token.isSymbol_iff.1 h
    rw [hk, htext]
    simp only [marks, List.mem_cons, Prod.mk.injEq, List.not_mem_nil, or_false] at hmark
    rcases hmark with h | h | h | h | h | h <;> (obtain ⟨rfl, rfl⟩ := h; rfl)
  · obtain ⟨hk, htext⟩ := Token.isWord_iff.1 h
    rw [hk, htext]
    simp only [words, List.mem_cons, Prod.mk.injEq, List.not_mem_nil, or_false] at hword
    rcases hword with h | h | h | h | h | h | h <;> (obtain ⟨rfl, rfl⟩ := h; rfl)

theorem Comparison.isSpelled_of_ofToken? {t : Token} {how : Comparison}
    (h : ofToken? t = some how) : how.IsSpelled t := by
  unfold ofToken? at h
  split at h
  · rename_i hk
    refine Or.inl ⟨t.text, ?_, Token.isSymbol_iff.2 ⟨hk, rfl⟩⟩
    split at h <;> cases h <;> simp [marks, *]
  · rename_i hk
    refine Or.inr ⟨upper t.text, ?_, Token.isWord_iff.2 ⟨hk, (upper_upper _).symm⟩⟩
    split at h <;> cases h <;> simp [words, *]
  · cases h

theorem Constant.ofWord?_of_isSpelled {t : Token} {c : Constant} (h : c.IsSpelled t) :
    t.kind = .word ∧ upper t.text ≠ "DEFINED" ∧ ofWord? t.text = some c := by
  obtain ⟨word, hword, h⟩ := h
  obtain ⟨hk, htext⟩ := Token.isWord_iff.1 h
  refine ⟨hk, ?_⟩
  unfold ofWord?
  rw [htext]
  simp only [words, List.mem_cons, Prod.mk.injEq, List.not_mem_nil, or_false] at hword
  rcases hword with h | h | h | h | h | h | h | h <;>
    (obtain ⟨rfl, rfl⟩ := h; exact ⟨by decide, rfl⟩)

theorem Constant.isSpelled_of_ofWord? {t : Token} {c : Constant} (hk : t.kind = .word)
    (h : ofWord? t.text = some c) : c.IsSpelled t := by
  refine ⟨upper t.text, ?_, Token.isWord_iff.2 ⟨hk, (upper_upper _).symm⟩⟩
  unfold ofWord? at h
  split at h <;> cases h <;> simp [words, *]

-- ================================================================= trees

/-- The tree that a derivation writes. -/
def Derivation.expression {n : Nonterminal} : Derivation n → n.Fold Expression Expression
  | .or first more => more.expression first.expression
  | .orEnd => id
  | .orNext _ _ next more => fun left => more.expression (.or left next.expression)
  | .and first more => more.expression first.expression
  | .andEnd => id
  | .andNext _ _ next more => fun left => more.expression (.and left next.expression)
  | .deny _ _ denied => .not denied.expression
  | .affirm c => c.expression
  | .single s => s.expression
  | .compare left _ how _ right => .compare how left.expression right.expression
  | .sum first more => more.expression first.expression
  | .sumEnd => id
  | .plus _ _ next more => fun left => more.expression (.add left next.expression)
  | .minus _ _ next more => fun left => more.expression (.subtract left next.expression)
  | .number written _ => .number written.text
  | .text literal _ => .text literal.text
  | .group _ _ inner _ _ => inner.expression
  | .negative _ _ operand => .negative operand.expression
  | .constant _ c _ => .constant c
  | .defined _ _ name _ _ _ _ _ => .defined name.text

/-- The tokens are read as that tree up to the rest. -/
def Nonterminal.Reads (fuel : Nat) (ts rest : List Token) :
    (n : Nonterminal) → n.Fold Expression Expression → Prop
  | .or, e => Expression.readOr fuel ts = some (e, rest)
  | .orMore, e => ∀ left, Expression.readOrMore fuel left ts = some (e left, rest)
  | .and, e => Expression.readAnd fuel ts = some (e, rest)
  | .andMore, e => ∀ left, Expression.readAndMore fuel left ts = some (e left, rest)
  | .not, e => Expression.readNot fuel ts = some (e, rest)
  | .comparison, e => Expression.readComparison fuel ts = some (e, rest)
  | .sum, e => Expression.readSum fuel ts = some (e, rest)
  | .sumMore, e => ∀ left, Expression.readSumMore fuel left ts = some (e left, rest)
  | .operand, e => Expression.readOperand fuel ts = some (e, rest)

-- ============================================================= what follows

namespace Nonterminal

/-- A token that continues a sum. -/
def continuesSum (t : Token) : Bool := t.isSymbol "+" || t.isSymbol "-"

/-- A token that continues a comparison or the sum at its end. -/
def continuesComparison (t : Token) : Bool :=
  (Comparison.ofToken? t).isSome || continuesSum t

/-- A token that continues an `and` or what stands at its end. -/
def continuesAnd (t : Token) : Bool := t.isWord "AND" || continuesComparison t

/-- A token that continues an `or` or what stands at its end. -/
def continuesOr (t : Token) : Bool := t.isWord "OR" || continuesAnd t

/-- A token that continues what is derived. -/
def continues : Nonterminal → Token → Bool
  | .or, t | .orMore, t => continuesOr t
  | .and, t | .andMore, t => continuesAnd t
  | .not, t | .comparison, t => continuesComparison t
  | .sum, t | .sumMore, t => continuesSum t
  | .operand, _ => false

/-- What is derived ends before these tokens. -/
def EndsBefore (n : Nonterminal) (ts : List Token) : Prop :=
  ∀ t, ts.head? = some t → n.continues t = false

/-- The depth of calls that is needed beside that for the tokens. -/
def slack : Nonterminal → Nat
  | .operand => 0
  | .orMore | .andMore | .sumMore => 1
  | .sum => 2
  | .comparison => 3
  | .not => 4
  | .and => 5
  | .or => 6

theorem endsBefore_nil (n : Nonterminal) : n.EndsBefore [] := nofun

theorem endsBefore_cons {n : Nonterminal} {t : Token} {ts : List Token} :
    n.EndsBefore (t :: ts) ↔ n.continues t = false := by
  simp [EndsBefore]

end Nonterminal

section Follow

variable {t : Token}

theorem continuesSum_word (h : t.kind = .word) :
    Nonterminal.continuesSum t = false := by
  simp [Nonterminal.continuesSum, Token.isSymbol, h]

theorem isWord_other {word other : String} (h : t.isWord word = true)
    (hne : upper word ≠ upper other) : t.isWord other = false := by
  refine Bool.eq_false_iff.2 fun hother => hne ?_
  rw [← (Token.isWord_iff.1 h).2, (Token.isWord_iff.1 hother).2]

theorem isSymbol_other {mark other : String} (h : t.isSymbol mark = true)
    (hne : mark ≠ other) : t.isSymbol other = false := by
  refine Bool.eq_false_iff.2 fun hother => hne ?_
  rw [← (Token.isSymbol_iff.1 h).2, (Token.isSymbol_iff.1 hother).2]

theorem ofToken?_word {word : String} (h : t.isWord word = true)
    (hnone : ∀ p ∈ Comparison.words, upper word ≠ upper p.1) :
    Comparison.ofToken? t = none := by
  obtain ⟨hk, htext⟩ := Token.isWord_iff.1 h
  refine Option.eq_none_iff_forall_ne_some.2 fun how hhow => ?_
  rcases Comparison.isSpelled_of_ofToken? hhow with
    ⟨mark, -, hmark⟩ | ⟨other, hother, hword⟩
  · rw [(Token.isSymbol_iff.1 hmark).1] at hk
    cases hk
  · exact hnone _ hother (htext.symm.trans (Token.isWord_iff.1 hword).2)

/-- `OR` continues no `and`. -/
theorem continuesAnd_or (h : t.isWord "OR" = true) :
    Nonterminal.continuesAnd t = false := by
  have hsum := continuesSum_word (Token.isWord_iff.1 h).1
  have hand : t.isWord "AND" = false := isWord_other h (by decide)
  have hnone := ofToken?_word h (by decide)
  simp [Nonterminal.continuesAnd, Nonterminal.continuesComparison, hand, hnone, hsum]

/-- `AND` continues no `not`. -/
theorem continuesComparison_and (h : t.isWord "AND" = true) :
    Nonterminal.continuesComparison t = false := by
  have hsum := continuesSum_word (Token.isWord_iff.1 h).1
  have hnone := ofToken?_word h (by decide)
  simp [Nonterminal.continuesComparison, hnone, hsum]

/-- What compares continues no sum. -/
theorem continuesSum_compare {how : Comparison} (h : how.IsSpelled t) :
    Nonterminal.continuesSum t = false := by
  rcases h with ⟨mark, hmark, h⟩ | ⟨word, -, h⟩
  · have hne : ∀ p ∈ Comparison.marks, p.1 ≠ "+" ∧ p.1 ≠ "-" := by decide
    obtain ⟨hk, htext⟩ := Token.isSymbol_iff.1 h
    obtain ⟨hplus, hminus⟩ := hne _ hmark
    simp [Nonterminal.continuesSum, Token.isSymbol, htext, hplus, hminus]
  · exact continuesSum_word (Token.isWord_iff.1 h).1

/-- A closing parenthesis continues nothing. -/
theorem continuesOr_closing (h : t.isSymbol ")" = true) :
    Nonterminal.continuesOr t = false := by
  obtain ⟨hk, htext⟩ := Token.isSymbol_iff.1 h
  have hnone : Comparison.ofToken? t = none := by
    unfold Comparison.ofToken?
    rw [hk, htext]
    rfl
  simp [Nonterminal.continuesOr, Nonterminal.continuesAnd,
    Nonterminal.continuesComparison, Nonterminal.continuesSum, Token.isWord,
    Token.isSymbol, hk, htext, hnone]

end Follow

namespace Derivation

open Nonterminal

variable {rest : List Token}

/-- What follows the first part of an `or` is no part of it. -/
theorem endsBefore_orMore (d : Derivation .orMore)
    (h : Nonterminal.or.EndsBefore rest) :
    Nonterminal.and.EndsBefore (d.tokens ++ rest) := by
  cases d with
  | orEnd =>
      intro t ht
      have hends := h t ht
      simp only [continues, continuesOr, Bool.or_eq_false_iff] at hends ⊢
      exact hends.2
  | orNext word hword next more =>
      exact endsBefore_cons.2 (continuesAnd_or hword)

theorem endsBefore_andMore (d : Derivation .andMore)
    (h : Nonterminal.and.EndsBefore rest) :
    Nonterminal.not.EndsBefore (d.tokens ++ rest) := by
  cases d with
  | andEnd =>
      intro t ht
      have hends := h t ht
      simp only [continues, continuesAnd, Bool.or_eq_false_iff] at hends ⊢
      exact hends.2
  | andNext word hword next more =>
      exact endsBefore_cons.2 (continuesComparison_and hword)

theorem endsBefore_sum (h : Nonterminal.comparison.EndsBefore rest) :
    Nonterminal.sum.EndsBefore rest := by
  intro t ht
  have hends := h t ht
  simp only [continues, continuesComparison, Bool.or_eq_false_iff] at hends ⊢
  exact hends.2

theorem endsBefore_operand (ts : List Token) : Nonterminal.operand.EndsBefore ts :=
  fun _ _ => rfl

-- ============================================================ what begins

/-- An operand does not begin with `NOT`. -/
theorem head_operand (d : Derivation .operand) :
    ∃ t ts, d.tokens = t :: ts ∧ t.isWord "NOT" = false := by
  cases d with
  | number written h => exact ⟨_, _, rfl, by simp [Token.isWord, h]⟩
  | text literal h => exact ⟨_, _, rfl, by simp [Token.isWord, h]⟩
  | group opening ho inner closing hc =>
      exact ⟨_, _, rfl, by simp [Token.isWord, (Token.isSymbol_iff.1 ho).1]⟩
  | negative mark h operand =>
      exact ⟨_, _, rfl, by simp [Token.isWord, (Token.isSymbol_iff.1 h).1]⟩
  | constant word c h =>
      obtain ⟨other, hother, h⟩ := h
      have hne : ∀ p ∈ Constant.words, upper p.1 ≠ upper "NOT" := by decide
      exact ⟨_, _, rfl, isWord_other h (hne (other, c) hother)⟩
  | defined word opening name closing hw ho hn hc =>
      exact ⟨_, _, rfl, isWord_other hw (by decide)⟩

theorem head_sum (d : Derivation .sum) :
    ∃ t ts, d.tokens = t :: ts ∧ t.isWord "NOT" = false := by
  cases d with
  | sum first more =>
      obtain ⟨t, ts, hts, hnot⟩ := head_operand first
      exact ⟨t, ts ++ more.tokens, by rw [tokens, hts, List.cons_append], hnot⟩

/-- A comparison does not begin with `NOT`. -/
theorem head_comparison (d : Derivation .comparison) :
    ∃ t ts, d.tokens = t :: ts ∧ t.isWord "NOT" = false := by
  cases d with
  | single s => exact head_sum s
  | compare left operator how h right =>
      obtain ⟨t, ts, hts, hnot⟩ := head_sum left
      exact ⟨t, ts ++ operator :: right.tokens,
        by rw [tokens, hts, List.cons_append], hnot⟩

end Derivation

-- ================================================================= rules

namespace Nonterminal.Reads

open Expression

variable {fuel : Nat} {ts mid rest : List Token} {e : Expression}

section Alternatives

variable {more : Expression → Expression}

theorem or (hfirst : Nonterminal.and.Reads fuel ts mid e)
    (hmore : Nonterminal.orMore.Reads fuel mid rest more) :
    Nonterminal.or.Reads (fuel + 1) ts rest (more e) := by
  simp only [Reads, readOr] at hfirst hmore ⊢
  rw [hfirst]
  exact hmore e

theorem orEnd (hends : Nonterminal.orMore.EndsBefore rest) :
    Nonterminal.orMore.Reads (fuel + 1) rest rest id := by
  intro left
  cases rest with
  | nil => rfl
  | cons t rest =>
      have hword := endsBefore_cons.1 hends
      simp only [continues, continuesOr, Bool.or_eq_false_iff] at hword
      simp only [readOrMore, hword.1]
      rfl

theorem orNext {word : Token} (h : word.isWord "OR" = true)
    (hnext : Nonterminal.and.Reads fuel ts mid e)
    (hmore : Nonterminal.orMore.Reads fuel mid rest more) :
    Nonterminal.orMore.Reads (fuel + 1) (word :: ts) rest fun left =>
      more (.or left e) := by
  intro left
  simp only [Reads, readOrMore, h, if_true] at hnext hmore ⊢
  rw [hnext]
  exact hmore (.or left e)

theorem and (hfirst : Nonterminal.not.Reads fuel ts mid e)
    (hmore : Nonterminal.andMore.Reads fuel mid rest more) :
    Nonterminal.and.Reads (fuel + 1) ts rest (more e) := by
  simp only [Reads, readAnd] at hfirst hmore ⊢
  rw [hfirst]
  exact hmore e

theorem andEnd (hends : Nonterminal.andMore.EndsBefore rest) :
    Nonterminal.andMore.Reads (fuel + 1) rest rest id := by
  intro left
  cases rest with
  | nil => rfl
  | cons t rest =>
      have hword := endsBefore_cons.1 hends
      simp only [continues, continuesAnd, Bool.or_eq_false_iff] at hword
      simp only [readAndMore, hword.1]
      rfl

theorem andNext {word : Token} (h : word.isWord "AND" = true)
    (hnext : Nonterminal.not.Reads fuel ts mid e)
    (hmore : Nonterminal.andMore.Reads fuel mid rest more) :
    Nonterminal.andMore.Reads (fuel + 1) (word :: ts) rest fun left =>
      more (.and left e) := by
  intro left
  simp only [Reads, readAndMore, h, if_true] at hnext hmore ⊢
  rw [hnext]
  exact hmore (.and left e)

end Alternatives

section Comparisons

theorem deny {word : Token} (h : word.isWord "NOT" = true)
    (hdenied : Nonterminal.not.Reads fuel ts rest e) :
    Nonterminal.not.Reads (fuel + 1) (word :: ts) rest (.not e) := by
  simp only [Reads, readNot, h, if_true] at hdenied ⊢
  rw [hdenied]
  rfl

theorem affirm {t : Token} (h : t.isWord "NOT" = false)
    (hc : Nonterminal.comparison.Reads fuel (t :: ts) rest e) :
    Nonterminal.not.Reads (fuel + 1) (t :: ts) rest e := by
  simp only [Reads, readNot, h] at hc ⊢
  exact hc

theorem single (hs : Nonterminal.sum.Reads fuel ts rest e)
    (hends : Nonterminal.comparison.EndsBefore rest) :
    Nonterminal.comparison.Reads (fuel + 1) ts rest e := by
  simp only [Reads, readComparison] at hs ⊢
  rw [hs]
  cases rest with
  | nil => rfl
  | cons t rest =>
      have hnone := endsBefore_cons.1 hends
      simp only [continues, continuesComparison, Bool.or_eq_false_iff,
        Option.isSome_eq_false_iff, Option.isNone_iff_eq_none] at hnone
      simp only [Option.bind_eq_bind, Option.bind_some, hnone.1]

theorem compare {operator : Token} {how : Comparison} (h : how.IsSpelled operator)
    {e' : Expression} (hleft : Nonterminal.sum.Reads fuel ts (operator :: mid) e)
    (hright : Nonterminal.sum.Reads fuel mid rest e') :
    Nonterminal.comparison.Reads (fuel + 1) ts rest (.compare how e e') := by
  simp only [Reads, readComparison] at hleft hright ⊢
  rw [hleft]
  simp only [Option.bind_eq_bind, Option.bind_some, Comparison.ofToken?_of_isSpelled h]
  rw [hright]
  rfl

end Comparisons

section Sums

variable {more : Expression → Expression} {mark : Token}

theorem sum (hfirst : Nonterminal.operand.Reads fuel ts mid e)
    (hmore : Nonterminal.sumMore.Reads fuel mid rest more) :
    Nonterminal.sum.Reads (fuel + 1) ts rest (more e) := by
  simp only [Reads, readSum] at hfirst hmore ⊢
  rw [hfirst]
  exact hmore e

theorem sumEnd (hends : Nonterminal.sumMore.EndsBefore rest) :
    Nonterminal.sumMore.Reads (fuel + 1) rest rest id := by
  intro left
  cases rest with
  | nil => rfl
  | cons t rest =>
      have hmark := endsBefore_cons.1 hends
      simp only [continues, continuesSum, Bool.or_eq_false_iff] at hmark
      simp only [readSumMore, hmark.1, hmark.2]
      rfl

theorem plus (h : mark.isSymbol "+" = true)
    (hnext : Nonterminal.operand.Reads fuel ts mid e)
    (hmore : Nonterminal.sumMore.Reads fuel mid rest more) :
    Nonterminal.sumMore.Reads (fuel + 1) (mark :: ts) rest fun left =>
      more (.add left e) := by
  intro left
  simp only [Reads, readSumMore, h, if_true] at hnext hmore ⊢
  rw [hnext]
  exact hmore (.add left e)

theorem minus (h : mark.isSymbol "-" = true)
    (hnext : Nonterminal.operand.Reads fuel ts mid e)
    (hmore : Nonterminal.sumMore.Reads fuel mid rest more) :
    Nonterminal.sumMore.Reads (fuel + 1) (mark :: ts) rest fun left =>
      more (.subtract left e) := by
  have hplus : mark.isSymbol "+" = false := isSymbol_other h (by decide)
  intro left
  simp only [Reads, readSumMore, hplus, h, if_true] at hnext hmore ⊢
  rw [hnext]
  exact hmore (.subtract left e)

end Sums

section Operands

theorem number {written : Token} (h : written.kind = .number) :
    Nonterminal.operand.Reads (fuel + 1) (written :: rest) rest (.number written.text) := by
  simp only [Reads, readOperand, h]

theorem text {literal : Token} (h : literal.kind = .string) :
    Nonterminal.operand.Reads (fuel + 1) (literal :: rest) rest (.text literal.text) := by
  simp only [Reads, readOperand, h]

theorem group {opening closing : Token} (ho : opening.isSymbol "(" = true)
    (hinner : Nonterminal.or.Reads fuel ts (closing :: rest) e)
    (hc : closing.isSymbol ")" = true) :
    Nonterminal.operand.Reads (fuel + 1) (opening :: ts) rest e := by
  obtain ⟨hk, htext⟩ := Token.isSymbol_iff.1 ho
  simp only [Reads, readOperand, hk, htext, if_true] at hinner ⊢
  rw [hinner]
  simp only [Option.bind_eq_bind, Option.bind_some, hc, if_true]

theorem negative {mark : Token} (h : mark.isSymbol "-" = true)
    (hoperand : Nonterminal.operand.Reads fuel ts rest e) :
    Nonterminal.operand.Reads (fuel + 1) (mark :: ts) rest (.negative e) := by
  have hne : ("-" : String) ≠ "(" := by decide
  obtain ⟨hk, htext⟩ := Token.isSymbol_iff.1 h
  simp only [Reads, readOperand, hk, htext, if_neg hne, if_true] at hoperand ⊢
  rw [hoperand]
  rfl

theorem constant {word : Token} {c : Constant} (h : c.IsSpelled word) :
    Nonterminal.operand.Reads (fuel + 1) (word :: rest) rest (.constant c) := by
  obtain ⟨hk, hne, hword⟩ := Constant.ofWord?_of_isSpelled h
  simp only [Reads, readOperand, hk, readWord, if_neg hne, hword, Option.map_some]

theorem defined {word opening name closing : Token} (hw : word.isWord "DEFINED" = true)
    (ho : opening.isSymbol "(" = true) (hn : name.kind = .word)
    (hc : closing.isSymbol ")" = true) :
    Nonterminal.operand.Reads (fuel + 1) (word :: opening :: name :: closing :: rest) rest
      (.defined name.text) := by
  have hdefined : upper "DEFINED" = "DEFINED" := by decide
  obtain ⟨hk, htext⟩ := Token.isWord_iff.1 hw
  simp only [Reads, readOperand, hk, readWord, htext, hdefined, if_true, readDefined, ho,
    hn, hc]
  rfl

end Operands

end Nonterminal.Reads

-- ========================================================== completeness

namespace Derivation

open Nonterminal

/-- Tokens that are derived are read as the tree that the derivation writes, up to
what cannot continue them. -/
theorem reads {n : Nonterminal} (d : Derivation n) {fuel : Nat} {rest : List Token}
    (hfuel : 8 * d.tokens.length + n.slack ≤ fuel + 1) (hends : n.EndsBefore rest) :
    n.Reads (fuel + 1) (d.tokens ++ rest) rest d.expression := by
  induction d generalizing fuel rest with
  | or first more ihFirst ihMore =>
      simp only [tokens, List.length_append, List.append_assoc, slack]
        at hfuel ihFirst ihMore ⊢
      obtain ⟨fuel, rfl⟩ := Nat.exists_eq_add_one.2 (show 0 < fuel by omega)
      exact .or (ihFirst (by omega) (endsBefore_orMore more hends))
        (ihMore (by omega) hends)
  | orEnd => exact .orEnd hends
  | orNext word h next more ihNext ihMore =>
      simp only [tokens, List.length_cons, List.length_append, List.cons_append,
        List.append_assoc, slack]
        at hfuel ihNext ihMore ⊢
      obtain ⟨fuel, rfl⟩ := Nat.exists_eq_add_one.2 (show 0 < fuel by omega)
      exact .orNext h (ihNext (by omega) (endsBefore_orMore more hends))
        (ihMore (by omega) hends)
  | and first more ihFirst ihMore =>
      simp only [tokens, List.length_append, List.append_assoc, slack]
        at hfuel ihFirst ihMore ⊢
      obtain ⟨fuel, rfl⟩ := Nat.exists_eq_add_one.2 (show 0 < fuel by omega)
      exact .and (ihFirst (by omega) (endsBefore_andMore more hends))
        (ihMore (by omega) hends)
  | andEnd => exact .andEnd hends
  | andNext word h next more ihNext ihMore =>
      simp only [tokens, List.length_cons, List.length_append, List.cons_append,
        List.append_assoc, slack]
        at hfuel ihNext ihMore ⊢
      obtain ⟨fuel, rfl⟩ := Nat.exists_eq_add_one.2 (show 0 < fuel by omega)
      exact .andNext h (ihNext (by omega) (endsBefore_andMore more hends))
        (ihMore (by omega) hends)
  | deny word h denied ih =>
      simp only [tokens, List.length_cons, List.cons_append, slack] at hfuel ih ⊢
      obtain ⟨fuel, rfl⟩ := Nat.exists_eq_add_one.2 (show 0 < fuel by omega)
      exact .deny h (ih (by omega) hends)
  | affirm c ih =>
      simp only [tokens, slack] at hfuel ih ⊢
      obtain ⟨fuel, rfl⟩ := Nat.exists_eq_add_one.2 (show 0 < fuel by omega)
      obtain ⟨t, ts, hts, hnot⟩ := head_comparison c
      have hc : Nonterminal.comparison.Reads (fuel + 1) (c.tokens ++ rest) rest
          c.expression := ih (by omega) hends
      rw [hts] at hc ⊢
      exact .affirm hnot hc
  | single s ih =>
      simp only [tokens, slack] at hfuel ih ⊢
      obtain ⟨fuel, rfl⟩ := Nat.exists_eq_add_one.2 (show 0 < fuel by omega)
      exact .single (ih (by omega) (endsBefore_sum hends)) hends
  | compare left operator how h right ihLeft ihRight =>
      simp only [tokens, List.length_append, List.length_cons, List.cons_append,
        List.append_assoc, slack]
        at hfuel ihLeft ihRight ⊢
      obtain ⟨fuel, rfl⟩ := Nat.exists_eq_add_one.2 (show 0 < fuel by omega)
      exact .compare h (ihLeft (by omega) (endsBefore_cons.2 (continuesSum_compare h)))
        (ihRight (by omega) (endsBefore_sum hends))
  | sum first more ihFirst ihMore =>
      simp only [tokens, List.length_append, List.append_assoc, slack]
        at hfuel ihFirst ihMore ⊢
      obtain ⟨fuel, rfl⟩ := Nat.exists_eq_add_one.2 (show 0 < fuel by omega)
      exact .sum (ihFirst (by omega) (endsBefore_operand _)) (ihMore (by omega) hends)
  | sumEnd => exact .sumEnd hends
  | plus mark h next more ihNext ihMore =>
      simp only [tokens, List.length_cons, List.length_append, List.cons_append,
        List.append_assoc, slack]
        at hfuel ihNext ihMore ⊢
      obtain ⟨fuel, rfl⟩ := Nat.exists_eq_add_one.2 (show 0 < fuel by omega)
      exact .plus h (ihNext (by omega) (endsBefore_operand _)) (ihMore (by omega) hends)
  | minus mark h next more ihNext ihMore =>
      simp only [tokens, List.length_cons, List.length_append, List.cons_append,
        List.append_assoc, slack]
        at hfuel ihNext ihMore ⊢
      obtain ⟨fuel, rfl⟩ := Nat.exists_eq_add_one.2 (show 0 < fuel by omega)
      exact .minus h (ihNext (by omega) (endsBefore_operand _)) (ihMore (by omega) hends)
  | number written h => exact .number h
  | text literal h => exact .text h
  | group opening ho inner closing hc ih =>
      simp only [tokens, List.length_cons, List.length_append, List.cons_append,
        List.append_assoc, List.nil_append, slack]
        at hfuel ih ⊢
      obtain ⟨fuel, rfl⟩ := Nat.exists_eq_add_one.2 (show 0 < fuel by omega)
      exact .group ho (ih (by omega) (endsBefore_cons.2 (continuesOr_closing hc))) hc
  | negative mark h operand ih =>
      simp only [tokens, List.length_cons, List.cons_append, slack] at hfuel ih ⊢
      obtain ⟨fuel, rfl⟩ := Nat.exists_eq_add_one.2 (show 0 < fuel by omega)
      exact .negative h (ih (by omega) (endsBefore_operand _))
  | constant word c h => exact .constant h
  | defined word opening name closing hw ho hn hc => exact .defined hw ho hn hc

end Derivation

end Condition

end AblOutline
