/-
Comparisons of whole numbers. A sum of whole numbers within 64 bits has the value
that arithmetic gives it (`Derivation.whole_value`), but values are compared as the
doubles nearest to them. So comparisons are exact unless rounding makes two
different numbers equal, and no number of 53 binary digits is rounded
(`holds_wholes`).
-/
import AblOutline.Condition.Whole
import AblOutline.Proofs.Conditions
import AblOutline.Proofs.Conditions.Doubles

namespace AblOutline.Condition

-- ================================================================ values

/-- The value is the whole number, which 64 bits hold. -/
def ComesTo (v : Option Value) (a : Int) : Prop :=
  InRange a ∧ v = some (.whole (Int64.ofInt a))

section InRange

variable {n a : Int}

theorem inRange?_eq_some : inRange? n = some a ↔ n = a ∧ InRange a := by
  unfold inRange?
  constructor
  · intro h
    split at h
    · cases h
      exact ⟨rfl, ‹_›⟩
    · cases h
  · rintro ⟨rfl, h⟩
    exact if_pos h

theorem InRange.toInt_ofInt (h : InRange a) : (Int64.ofInt a).toInt = a :=
  Int64.toInt_ofInt_of_le h.1 h.2

theorem ofNat?_of_inRange? {m? : Option Nat} (h : m?.bind (inRange? ·) = some a) :
    ComesTo (m?.bind Value.ofNat?) a := by
  obtain ⟨m, rfl, ha⟩ := Option.bind_eq_some_iff.1 h
  obtain ⟨rfl, hrange⟩ := inRange?_eq_some.1 ha
  refine ⟨hrange, ?_⟩
  rw [Option.bind_some, Value.ofNat?, if_pos (Int.ofNat_lt.1 hrange.2),
    Int64.ofInt_eq_ofNat]

end InRange

/-- What does not begin as a number to base sixteen is read to base ten. -/
theorem ofNumber?_ten {written : String} {v : Value}
    (hlower : ∀ digits, written.toList ≠ '0' :: 'x' :: digits)
    (hupper : ∀ digits, written.toList ≠ '0' :: 'X' :: digits)
    (hv : (Text.natural? 10 written.toList).bind Value.ofNat? = some v) :
    Value.ofNumber? written = some v := by
  unfold Value.ofNumber?
  split
  · exact absurd ‹_› (hlower _)
  · exact absurd ‹_› (hupper _)
  · rw [hv]

/-- A literal of a whole number has that value. -/
theorem ofNumber?_of_wholeLiteral? {written : String} {a : Int}
    (h : wholeLiteral? written = some a) :
    ComesTo (Value.ofNumber? written) a := by
  unfold wholeLiteral? at h
  split at h
  · rename_i digits heq
    rw [Value.ofNumber?, heq]
    exact ofNat?_of_inRange? h
  · rename_i digits heq
    rw [Value.ofNumber?, heq]
    exact ofNat?_of_inRange? h
  · rename_i hlower hupper
    obtain ⟨hrange, hvalue⟩ := ofNat?_of_inRange? h
    exact ⟨hrange, ofNumber?_ten hlower hupper hvalue⟩

/-- The value is the number; where a number stands before it, what comes of the value
of that is what comes of the number. -/
def Nonterminal.Whole : (n : Nonterminal) → n.Fold Int (Option Int) →
    n.Fold Value (Option Value) → Prop
  | .or, i, v | .and, i, v | .not, i, v | .comparison, i, v | .sum, i, v
  | .operand, i, v =>
    ∀ a, i = some a → ComesTo v a
  | .orMore, i, v | .andMore, i, v | .sumMore, i, v =>
    ∀ left a, InRange left → i left = some a → ComesTo (v (.whole (Int64.ofInt left))) a

/-- A part and what follows it come to a whole number by the number before. -/
theorem whole_bind {i : Option Int} {v : Option Value} {i' : Int → Option Int}
    {v' : Value → Option Value}
    (hfirst : ∀ a, i = some a → ComesTo v a)
    (hmore : ∀ left a, InRange left → i' left = some a →
      ComesTo (v' (.whole (Int64.ofInt left))) a)
    (a : Int) (ha : i.bind i' = some a) : ComesTo (v.bind v') a := by
  obtain ⟨left, hleft, ha⟩ := Option.bind_eq_some_iff.1 ha
  obtain ⟨hrange, hvalue⟩ := hfirst left hleft
  rw [hvalue]
  exact hmore left a hrange ha

/-- A derivation of whole numbers has the value of the number that it comes to. -/
theorem Derivation.whole_value (platform : Platform) (defined : String → Int64)
    {n : Nonterminal} (d : Derivation n) :
    n.Whole d.integer? (d.value? platform defined) := by
  induction d with
  | or first more ihFirst ihMore => exact whole_bind ihFirst ihMore
  | orEnd =>
      intro left a hrange ha
      cases ha
      exact ⟨hrange, rfl⟩
  | orNext word h next more ihNext ihMore =>
      intro left a hrange ha
      cases ha
  | and first more ihFirst ihMore => exact whole_bind ihFirst ihMore
  | andEnd =>
      intro left a hrange ha
      cases ha
      exact ⟨hrange, rfl⟩
  | andNext word h next more ihNext ihMore =>
      intro left a hrange ha
      cases ha
  | deny word h denied ih =>
      intro a ha
      cases ha
  | affirm c ih => exact ih
  | single s ih => exact ih
  | compare left operator how h right ihLeft ihRight =>
      intro a ha
      cases ha
  | sum first more ihFirst ihMore => exact whole_bind ihFirst ihMore
  | sumEnd =>
      intro left a hrange ha
      cases ha
      exact ⟨hrange, rfl⟩
  | plus mark h next more ihNext ihMore =>
      intro left a hrange ha
      obtain ⟨right, hright, ha⟩ := Option.bind_eq_some_iff.1 ha
      obtain ⟨total, htotal, hmore⟩ := Option.bind_eq_some_iff.1 ha
      obtain ⟨rfl, hin⟩ := inRange?_eq_some.1 htotal
      obtain ⟨-, hvalue⟩ := ihNext right hright
      simp only [value?, hvalue, Option.bind_some, Value.add?, ← Int64.ofInt_add]
      exact ihMore _ a hin hmore
  | minus mark h next more ihNext ihMore =>
      intro left a hrange ha
      obtain ⟨right, hright, ha⟩ := Option.bind_eq_some_iff.1 ha
      obtain ⟨rest, hrest, hmore⟩ := Option.bind_eq_some_iff.1 ha
      obtain ⟨rfl, hin⟩ := inRange?_eq_some.1 hrest
      obtain ⟨-, hvalue⟩ := ihNext right hright
      simp only [value?, hvalue, Option.bind_some, Value.subtract?, ← Int64.ofInt_sub]
      exact ihMore _ a hin hmore
  | number written h =>
      intro a ha
      exact ofNumber?_of_wholeLiteral? ha
  | text literal h =>
      intro a ha
      cases ha
  | group opening ho inner closing hc ih => exact ih
  | negative mark h operand ih =>
      intro a ha
      obtain ⟨b, hb, hneg⟩ := Option.bind_eq_some_iff.1 ha
      obtain ⟨rfl, hin⟩ := inRange?_eq_some.1 hneg
      obtain ⟨-, hvalue⟩ := ih b hb
      rw [value?, hvalue, Option.bind_some, Value.negative?, ← Int64.ofInt_neg]
      exact ⟨hin, rfl⟩
  | constant word c h =>
      intro a ha
      cases ha
  | defined word opening name closing hw ho hn hc =>
      intro a ha
      cases ha

-- =========================================================== comparisons

section Comparisons

variable {how : Comparison} (h : how ≠ .begins)

include h

/-- The order of two numbers satisfies a comparison when the numbers relate so. -/
theorem accepts?_compare (x y : Int) :
    Value.accepts? how (compare x y) = some (how.relates x y) := by
  rcases lt_trichotomy x y with hlt | rfl | hgt
  · rw [compare_lt_iff_lt.2 hlt]
    cases how with
    | begins => exact absurd rfl h
    | _ => simp [Value.accepts?, Comparison.relates, hlt, hlt.ne, hlt.le, hlt.not_gt]
  · rw [Std.compare_self]
    cases how with
    | begins => exact absurd rfl h
    | _ => simp [Value.accepts?, Comparison.relates]
  · rw [compare_gt_iff_gt.2 hgt]
    cases how with
    | begins => exact absurd rfl h
    | _ => simp [Value.accepts?, Comparison.relates, hgt, hgt.ne', hgt.le, hgt.not_gt]

/-- Whole numbers are compared as the doubles nearest to them. -/
theorem compare?_whole {a b : Int} (ha : InRange a) (hb : InRange b) :
    Value.compare? how (.whole (Int64.ofInt a)) (.whole (Int64.ofInt b))
      = some (how.relates (nearest a) (nearest b)) := by
  have horder := Value.order?_whole (Int64.ofInt a) (Int64.ofInt b)
  rw [ha.toInt_ofInt, hb.toInt_ofInt] at horder
  rw [Value.compare?, horder, Option.bind_some, accepts?_compare h]
  exact nofun

/-- Numbers that rounding does not make equal relate as their doubles do. -/
theorem relates_nearest {a b : Int} (hne : a = b ∨ nearest a ≠ nearest b) :
    how.relates (nearest a) (nearest b) = how.relates a b := by
  refine Option.some.inj ?_
  rw [← accepts?_compare h, ← accepts?_compare h, compare_nearest hne]

end Comparisons

/-- The comparison of two sums as a condition. -/
def Derivation.ofComparison (l r : Derivation .sum) (operator : Token) (how : Comparison)
    (h : how.IsSpelled operator) : Derivation .or :=
  .or (.and (.affirm (.compare l operator how h r)) .andEnd) .orEnd

/-- A comparison of whole numbers holds as the doubles nearest to them relate. It is
exact when rounding does not make two numbers equal, as it never does when both have
53 binary digits or fewer. -/
theorem holds_wholes {platform : Platform} {defined : String → Int64} {ts : List Token}
    {l r : Derivation .sum} {operator : Token} {how : Comparison} {a b : Int}
    (hl : l.integer? = some a) (hr : r.integer? = some b) (h : how.IsSpelled operator)
    (hbegins : how ≠ .begins)
    (hts : Expression.significant ts = l.tokens ++ operator :: r.tokens) :
    holds platform defined ts = how.relates (nearest a) (nearest b)
      ∧ (a = b ∨ nearest a ≠ nearest b → holds platform defined ts = how.relates a b)
      ∧ (a.natAbs ≤ 2 ^ 53 → b.natAbs ≤ 2 ^ 53 →
          holds platform defined ts = how.relates a b) := by
  obtain ⟨ha, hleft⟩ := l.whole_value platform defined a hl
  obtain ⟨hb, hright⟩ := r.whole_value platform defined b hr
  have htokens : (Derivation.ofComparison l r operator how h).tokens
      = Expression.significant ts := by
    simp only [Derivation.ofComparison, Derivation.tokens, List.append_nil, hts]
  have hvalue : (Derivation.ofComparison l r operator how h).value? platform defined
      = some (.truth (how.relates (nearest a) (nearest b))) := by
    simp only [Derivation.ofComparison, Derivation.value?, hleft, hright, Option.bind_some,
      compare?_whole hbegins ha hb, Option.map_some]
  have hholds : holds platform defined ts = how.relates (nearest a) (nearest b) := by
    rw [holds_of_derived htokens, hvalue]
    rfl
  have hexact (hne : a = b ∨ nearest a ≠ nearest b) :
      holds platform defined ts = how.relates a b :=
    hholds.trans (relates_nearest hbegins hne)
  refine ⟨hholds, hexact, fun hsmall hsmall' => hexact ?_⟩
  rw [nearest_of_small hsmall, nearest_of_small hsmall']
  exact eq_or_ne a b

/-- A difference and a number to base sixteen are compared exactly. -/
theorem holds_wholes_difference :
    let token (kind : TokenKind) (text : String) : Token :=
      { kind, text, start := default, range := default, owner := 0 }
    holds {} (fun _ => 0) [token .number "2", token .symbol "-", token .number "3",
      token .symbol ">", token .number "0x1"] = false := by
  intro token
  let l : Derivation .sum :=
    .sum (.number (token .number "2") rfl)
      (.minus (token .symbol "-") (by decide) (.number (token .number "3") rfl) .sumEnd)
  let r : Derivation .sum := .sum (.number (token .number "0x1") rfl) .sumEnd
  have h : Comparison.greater.IsSpelled (token .symbol ">") :=
    Or.inl ⟨">", by decide, by decide⟩
  have hl : l.integer? = some (-1) := by decide
  have hr : r.integer? = some 1 := by decide
  exact (holds_wholes hl hr h (by decide) rfl).2.2 (by omega) (by omega)

/-- Two whole numbers that differ are equal in a condition: rounding to 53 binary digits
makes the first the second. -/
theorem wholes_confused :
    let token (kind : TokenKind) (text : String) : Token :=
      { kind, text, start := default, range := default, owner := 0 }
    ∃ l r : Derivation .sum,
      l.tokens = [token .number "9007199254740993"]
        ∧ r.tokens = [token .number "9007199254740992"]
        ∧ l.integer? = some 9007199254740993 ∧ r.integer? = some 9007199254740992
        ∧ Comparison.equal.relates 9007199254740993 9007199254740992 = false
        ∧ holds {} (fun _ => 0) (l.tokens ++ token .symbol "=" :: r.tokens) = true := by
  intro token
  refine ⟨.sum (.number (token .number "9007199254740993") rfl) .sumEnd,
    .sum (.number (token .number "9007199254740992") rfl) .sumEnd, rfl, rfl, ?_, ?_, ?_, ?_⟩
  · decide +kernel
  · decide +kernel
  · decide
  · decide +kernel

end AblOutline.Condition
