/-
Words whatever their case. A word that spells a keyword in capitals spells it
in small letters too and is one of its shortened forms, so all ways in which a
parse compares words agree on it. With that the first word of a header says
its kind, and a condition that is a lone `TRUE` or `FALSE` has that truth.
-/
import AblOutline.Condition.Evaluation
import AblOutline.Keyword.Statement
import Mathlib.Logic.Basic

namespace AblOutline.Text

-- ============================================================ characters

theorem toNat_toUpper (c : Char) :
    c.toUpper.toNat
      = if 97 ≤ c.toNat ∧ c.toNat ≤ 122 then c.toNat - 32 else c.toNat := by
  have hiff : ('a'.val ≤ c.val ∧ c.val ≤ 'z'.val)
      ↔ (97 ≤ c.toNat ∧ c.toNat ≤ 122) := Iff.rfl
  unfold Char.toUpper
  by_cases h : 'a'.val ≤ c.val ∧ c.val ≤ 'z'.val
  · rw [dif_pos h, if_pos (hiff.1 h)]
    have hrange := hiff.1 h
    show (c.val + ('A'.val - 'a'.val)).toNat = _
    rw [UInt32.toNat_add]
    -- the difference is taken modulo the width
    show (c.toNat + 4294967264) % 2 ^ 32 = _
    omega
  · rw [dif_neg h, if_neg (fun h' => h (hiff.2 h'))]

theorem toNat_toLower (c : Char) :
    c.toLower.toNat
      = if 65 ≤ c.toNat ∧ c.toNat ≤ 90 then c.toNat + 32 else c.toNat := by
  have hiff : (c.val ≥ 'A'.val ∧ c.val ≤ 'Z'.val)
      ↔ (65 ≤ c.toNat ∧ c.toNat ≤ 90) := Iff.rfl
  unfold Char.toLower
  by_cases h : c.val ≥ 'A'.val ∧ c.val ≤ 'Z'.val
  · rw [dif_pos h, if_pos (hiff.1 h)]
    have hrange := hiff.1 h
    show (c.val + ('a'.val - 'A'.val)).toNat = _
    rw [UInt32.toNat_add]
    show (c.toNat + 32) % 2 ^ 32 = _
    omega
  · rw [dif_neg h, if_neg (fun h' => h (hiff.2 h'))]

theorem toLower_toUpper (c : Char) : c.toUpper.toLower = c.toLower := by
  apply Char.toNat_inj.1
  rw [toNat_toLower, toNat_toLower, toNat_toUpper]
  by_cases h : 97 ≤ c.toNat ∧ c.toNat ≤ 122
  · rw [if_pos h, if_pos (by omega), if_neg (by omega)]
    omega
  · rw [if_neg h]

-- ================================================================= words

variable {word keyword : String}

theorem lower_upper (s : String) : lower (upper s) = lower s := by
  unfold lower upper
  rw [String.toList_ofList, List.map_map]
  congr 1
  exact List.map_congr_left fun c _ => toLower_toUpper c

/-- What is the same in capitals is the same in small letters. -/
theorem lower_of_upper (h : upper word = keyword) :
    lower word = lower keyword := by
  rw [← h, lower_upper]

theorem same_of_upper (h : upper word = keyword) (other : String) :
    same word other = same keyword other := by
  unfold same
  rw [lower_of_upper h]

theorem length_le_byteSize (cs : List Char) :
    cs.length ≤ (String.ofList cs).utf8ByteSize := by
  induction cs with
  | nil => exact Nat.zero_le _
  | cons c cs ih =>
      have hsplit : String.ofList (c :: cs)
          = String.singleton c ++ String.ofList cs := by
        apply String.toList_inj.1
        simp
      rw [hsplit, String.utf8ByteSize_append, String.utf8ByteSize_singleton,
        List.length_cons]
      have := Char.utf8Size_pos c
      omega

theorem length_of_upper (h : upper word = keyword) :
    word.toList.length = keyword.toList.length := by
  rw [← h, upper, String.toList_ofList, List.length_map]

/-- A keyword in full is a shortened form of itself. -/
theorem abbreviates_of_upper (h : upper word = keyword) {least : Nat}
    (hl : least ≤ keyword.toList.length) :
    abbreviates word keyword least = true := by
  unfold abbreviates startsSame
  have hbytes := length_le_byteSize word.toList
  rw [String.ofList_toList, length_of_upper h] at hbytes
  rw [lower_of_upper h, decide_eq_true (Nat.le_trans hl hbytes),
    Bool.true_and]
  exact List.isPrefixOf_iff_prefix.2 List.prefix_rfl

end AblOutline.Text

namespace AblOutline

open Text

variable {word keyword : String}

-- ============================================================ statements

theorem ofWord_of_block (h : upper word ∈ ["DO", "FOR", "REPEAT", "CASE"]) :
    StatementKind.ofWord word = .block := by
  have hin : Keyword.isIn word Keyword.blocks = true := by
    unfold Keyword.isIn
    generalize upper word = w at h
    revert w
    decide
  unfold StatementKind.ofWord
  rw [hin]
  generalize upper word = w at h
  revert w
  simp

theorem ofWord_of_procedure (h : upper word = "PROCEDURE") :
    StatementKind.ofWord word = .procedure := by
  have hin : Keyword.isIn word Keyword.blocks = false := by
    unfold Keyword.isIn
    rw [h]
    decide
  unfold StatementKind.ofWord
  rw [h, hin, abbreviates_of_upper h (by decide)]
  rfl

theorem ofWord_of_end (h : upper word = "END") :
    StatementKind.ofWord word = .close := by
  unfold StatementKind.ofWord
  rw [h]
  rfl

-- ============================================================ conditions

open Condition Condition.Expression

/-- A condition that is a lone constant. -/
theorem ofTokens?_constant {ts : List Token} {t : Token} {c : Constant}
    (hs : Expression.significant ts = [t]) (hk : t.kind = .word)
    (hc : Constant.ofWord? t.text = some c)
    (hnot : same t.text "NOT" = false)
    (hdefined : upper t.text ≠ "DEFINED") :
    Expression.ofTokens? ts = some (.constant c) := by
  have hword : t.isWord "NOT" = false := by
    unfold Token.isWord
    rw [hnot, Bool.and_false]
  have hoperand : ∀ fuel, readOperand (fuel + 1) [t]
      = some (.constant c, []) := by
    intro fuel
    unfold readOperand
    rw [hk]
    unfold readWord
    dsimp only
    rw [if_neg hdefined, hc]
    rfl
  unfold Expression.ofTokens?
  rw [hs]
  have hread : readOr (depthBound [t]) [t] = some (.constant c, []) := by
    show readOr 16 [t] = _
    simp [readOr, readAnd, readNot, hword, readComparison, readSum, hoperand,
      readSumMore, readAndMore, readOrMore]
  dsimp only
  rw [hread]

/-- A condition that is a lone `TRUE` or `FALSE`. -/
theorem holds_literal {platform : Platform} {defined : String → Int64}
    {ts : List Token} {t : Token} (hs : Expression.significant ts = [t])
    (hk : t.kind = .word) {truth : Bool}
    (ht : upper t.text = if truth then "TRUE" else "FALSE") :
    Condition.holds platform defined ts = truth := by
  have hread : Expression.ofTokens? ts = some (.constant (.truth truth)) := by
    apply ofTokens?_constant hs hk
    · unfold Constant.ofWord?
      rw [ht]
      cases truth <;> rfl
    · rw [same_of_upper ht]
      cases truth <;> decide
    · rw [ht]
      cases truth <;> decide
  unfold Condition.holds Condition.truth?
  rw [hread]
  rfl

end AblOutline
