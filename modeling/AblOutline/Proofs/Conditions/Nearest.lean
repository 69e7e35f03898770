/-
Whole numbers rounded as doubles hold them: to 53 binary digits, to the nearer of
two neighbours, and midway between two to the even one. Rounding keeps the order of
numbers, though it may make two equal (`nearest_mono`), and it keeps every number
of no more than 53 digits as it is (`nearest_of_small`).
-/
import Mathlib.Algebra.Order.Ring.Int

namespace AblOutline.Condition

/-- `m` in units of `unit`, rounded to the nearer whole number, or to the even one
of two that are as near. -/
def roundedDiv (m unit : Nat) : Nat :=
  if 2 * (m % unit) < unit then m / unit
  else if 2 * (m % unit) = unit then m / unit + m / unit % 2
  else m / unit + 1

/-- The distance of doubles with as many digits before the point as `n`, but one at
least. -/
def unitOf (n : Nat) : Nat := 2 ^ (n.log2 - 52)

/-- The double nearest to `n`. -/
def nearestNat (n : Nat) : Nat := roundedDiv n (unitOf n) * unitOf n

/-- The double nearest to `n`, which has its sign. -/
def nearest : Int → Int
  | .ofNat n => nearestNat n
  | .negSucc n => -(nearestNat (n + 1) : Int)

-- ============================================================== rounding

section RoundedDiv

variable {m m' unit c : Nat}

theorem roundedDiv_one : roundedDiv m 1 = m := by
  simp [roundedDiv, Nat.mod_one]

/-- Rounding does not depend on the scale. -/
theorem roundedDiv_mul (hc : 0 < c) :
    roundedDiv (m * c) (unit * c) = roundedDiv m unit := by
  have hlt : 2 * (m % unit * c) < unit * c ↔ 2 * (m % unit) < unit := by
    rw [← Nat.mul_assoc]
    exact Nat.mul_lt_mul_right hc
  have heq : 2 * (m % unit * c) = unit * c ↔ 2 * (m % unit) = unit := by
    rw [← Nat.mul_assoc]
    exact Nat.mul_left_inj (by omega)
  simp only [roundedDiv, Nat.mul_mod_mul_right, Nat.mul_div_mul_right _ _ hc, hlt, heq]

theorem roundedDiv_bounds :
    m / unit ≤ roundedDiv m unit ∧ roundedDiv m unit ≤ m / unit + 1 := by
  unfold roundedDiv
  split
  · omega
  · split
    · omega
    · omega

theorem roundedDiv_mono (h : m ≤ m') : roundedDiv m unit ≤ roundedDiv m' unit := by
  by_cases hq : m / unit = m' / unit
  · have hr : m % unit ≤ m' % unit := by
      have hm := Nat.div_add_mod m unit
      have hm' := Nat.div_add_mod m' unit
      rw [hq] at hm
      omega
    unfold roundedDiv
    rw [hq]
    split_ifs <;> omega
  · have hlt : m / unit + 1 ≤ m' / unit := by
      have := Nat.div_le_div_right (c := unit) h
      omega
    exact Nat.le_trans roundedDiv_bounds.2 (Nat.le_trans hlt roundedDiv_bounds.1)

/-- Without its last digits a number has 53. -/
theorem div_range {k : Nat} (h : m.log2 = 52 + k) :
    2 ^ 52 ≤ m / 2 ^ k ∧ m / 2 ^ k < 2 ^ 53 := by
  have hm : m ≠ 0 := by
    rintro rfl
    rw [Nat.log2_zero] at h
    omega
  constructor
  · rw [Nat.le_div_iff_mul_le (Nat.two_pow_pos k), ← Nat.pow_add, ← h]
    exact Nat.log2_self_le hm
  · rw [Nat.div_lt_iff_lt_mul (Nat.two_pow_pos k), ← Nat.pow_add,
      show 53 + k = m.log2 + 1 by omega]
    exact Nat.lt_log2_self

/-- Rounded to 53 digits, a number has that many, or is the next power of two. -/
theorem roundedDiv_range {k : Nat} (h : m.log2 = 52 + k) :
    2 ^ 52 ≤ roundedDiv m (2 ^ k) ∧ roundedDiv m (2 ^ k) ≤ 2 ^ 53 := by
  obtain ⟨hlow, hhigh⟩ := div_range h
  have hbounds : m / 2 ^ k ≤ roundedDiv m (2 ^ k) ∧ roundedDiv m (2 ^ k) ≤ m / 2 ^ k + 1 :=
    roundedDiv_bounds
  exact ⟨Nat.le_trans hlow hbounds.1, by omega⟩

end RoundedDiv

-- =============================================================== numbers

section Nearest

variable {n n' : Nat}

theorem nearestNat_of_log2 (h : n.log2 ≤ 52) : nearestNat n = n := by
  have hunit : unitOf n = 1 := by rw [unitOf, Nat.sub_eq_zero_of_le h, Nat.pow_zero]
  rw [nearestNat, hunit, roundedDiv_one, Nat.mul_one]

theorem nearestNat_of_le (h : n ≤ 0x20000000000000) : nearestNat n = n := by
  by_cases htop : n = 0x20000000000000
  · subst htop
    decide +kernel
  · apply nearestNat_of_log2
    by_cases hzero : n = 0
    · subst hzero
      decide
    · have := (Nat.log2_lt hzero (k := 53)).2 (by omega)
      omega

/-- The nearest double lies between the same powers of two, these included. -/
theorem nearestNat_range (h : n ≠ 0) :
    2 ^ n.log2 ≤ nearestNat n ∧ nearestNat n ≤ 2 ^ (n.log2 + 1) := by
  by_cases hlog : n.log2 ≤ 52
  · rw [nearestNat_of_log2 hlog]
    exact ⟨Nat.log2_self_le h, Nat.lt_log2_self.le⟩
  · have hk : n.log2 = 52 + (n.log2 - 52) := by omega
    obtain ⟨hge, hle⟩ := roundedDiv_range hk
    have hlow : 2 ^ n.log2 = 2 ^ 52 * unitOf n := by
      rw [unitOf, ← Nat.pow_add, ← hk]
    have hhigh : 2 ^ (n.log2 + 1) = 2 ^ 53 * unitOf n := by
      rw [unitOf, ← Nat.pow_add, show 53 + (n.log2 - 52) = n.log2 + 1 by omega]
    rw [hlow, hhigh]
    exact ⟨Nat.mul_le_mul_right _ hge, Nat.mul_le_mul_right _ hle⟩

theorem nearestNat_mono (h : n ≤ n') : nearestNat n ≤ nearestNat n' := by
  by_cases hzero : n = 0
  · subst hzero
    exact Nat.zero_le _
  have hlog : n.log2 ≤ n'.log2 :=
    (Nat.le_log2 (by omega)).2 (Nat.le_trans (Nat.log2_self_le hzero) h)
  by_cases hsame : n.log2 = n'.log2
  · have hunit : unitOf n = unitOf n' := by rw [unitOf, unitOf, hsame]
    rw [nearestNat, nearestNat, hunit]
    exact Nat.mul_le_mul_right _ (roundedDiv_mono h)
  · -- the power of two between the numbers is between the doubles too
    calc nearestNat n ≤ 2 ^ (n.log2 + 1) := (nearestNat_range hzero).2
      _ ≤ 2 ^ n'.log2 := Nat.pow_le_pow_right (by omega) (by omega)
      _ ≤ nearestNat n' := (nearestNat_range (by omega)).1

end Nearest

section Signed

variable {a b : Int}

/-- Rounding keeps the order of numbers, but may make them equal. -/
theorem nearest_mono (h : a ≤ b) : nearest a ≤ nearest b := by
  cases a with
  | ofNat n =>
      cases b with
      | ofNat n' => exact Int.ofNat_le.2 (nearestNat_mono (Int.ofNat_le.1 h))
      | negSucc n' =>
          have hneg := Int.lt_of_le_of_lt h (Int.negSucc_lt_zero n')
          exact absurd hneg (Int.not_lt.2 (Int.natCast_nonneg n))
  | negSucc n =>
      cases b with
      | ofNat n' =>
          simp only [nearest]
          omega
      | negSucc n' =>
          have hle : nearestNat (n' + 1) ≤ nearestNat (n + 1) := nearestNat_mono (by omega)
          simp only [nearest]
          omega

/-- A number of no more than 53 binary digits is kept. -/
theorem nearest_of_small (h : a.natAbs ≤ 0x20000000000000) : nearest a = a := by
  cases a with
  | ofNat n => exact congrArg Int.ofNat (nearestNat_of_le h)
  | negSucc n => exact congrArg (fun m : Nat => -(m : Int)) (nearestNat_of_le h)

/-- Numbers that are not made equal keep their order. -/
theorem compare_nearest (h : a = b ∨ nearest a ≠ nearest b) :
    compare (nearest a) (nearest b) = compare a b := by
  rcases h with rfl | hne
  · rw [Std.compare_self, Std.compare_self]
  rcases lt_trichotomy a b with hlt | rfl | hgt
  · rw [compare_lt_iff_lt.2 hlt, compare_lt_iff_lt]
    exact lt_of_le_of_ne (nearest_mono hlt.le) hne
  · exact absurd rfl hne
  · rw [compare_gt_iff_gt.2 hgt, compare_gt_iff_gt]
    exact lt_of_le_of_ne (nearest_mono hgt.le) hne.symm

end Signed

end AblOutline.Condition
