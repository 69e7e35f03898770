/-
Whole numbers as doubles. A double is made by shifting digits out of a number
while what is lost is kept in two bits; those decide how the rest is rounded
(`Shifted.roundedMantissa`). So the double of a whole number is the nearest one
(`denotes_ofInt`), and doubles of whole numbers have the order of the numbers that
they are (`compare_denotes`).
-/
import Mathlib
import AblOutline.Condition.Value
import AblOutline.Proofs.Conditions.Nearest

namespace AblOutline.Condition

open Float.Model Float.Model.UnpackedFloat

-- ============================================================== shifting

/-- What is left of `m` after `k` digits are shifted out: the digits before them, and
whether what is lost is a half at least, and whether it is anything else. -/
structure Shifted (m k : Nat) (em : ExtendedMantissa) : Prop where
  mantissa : em.mantissa = m / 2 ^ k
  roundBit : em.roundBit = true ↔ 2 ^ k ≤ 2 * (m % 2 ^ k)
  stickyBit : em.stickyBit = true ↔ 2 * (m % 2 ^ k) ≠ 0 ∧ 2 * (m % 2 ^ k) ≠ 2 ^ k

section Shifted

variable {m k : Nat} {em : ExtendedMantissa}

theorem Shifted.zero : Shifted m 0 (.ofMantissaAndAccuracy m .exact) := by
  refine ⟨(Nat.div_one m).symm, ?_, ?_⟩ <;>
    simp [ExtendedMantissa.ofMantissaAndAccuracy, Nat.mod_one]

theorem Shifted.succ (h : Shifted m k em) : Shifted m (k + 1) em.shiftRightOne := by
  have hsplit : m % 2 ^ (k + 1) = 2 ^ k * (m / 2 ^ k % 2) + m % 2 ^ k := by
    rw [Nat.pow_succ, Nat.mod_mul]
    omega
  have hlt : m % 2 ^ k < 2 ^ k := Nat.mod_lt _ (Nat.two_pow_pos k)
  have hbit : m / 2 ^ k % 2 = 0 ∨ m / 2 ^ k % 2 = 1 := by omega
  refine ⟨?_, ?_, ?_⟩
  · rw [ExtendedMantissa.shiftRightOne, h.mantissa, Nat.div_div_eq_div_mul, ← Nat.pow_succ]
  · rw [ExtendedMantissa.shiftRightOne, h.mantissa, hsplit, Nat.pow_succ, bne_iff_ne]
    rcases hbit with hbit | hbit <;> rw [hbit] <;> omega
  · rw [ExtendedMantissa.shiftRightOne, Bool.or_eq_true, h.roundBit, h.stickyBit, hsplit,
      Nat.pow_succ]
    rcases hbit with hbit | hbit <;> rw [hbit] <;> omega

theorem Shifted.shift (k : Nat) :
    Shifted m k (ExtendedMantissa.ofMantissaAndAccuracy m .exact >>> k) := by
  induction k with
  | zero => exact .zero
  | succ k ih => exact ih.succ

/-- The two bits tell how the rest is rounded. -/
theorem Shifted.roundedMantissa (h : Shifted m k em) :
    em.roundedMantissa = roundedDiv m (2 ^ k) := by
  obtain ⟨mantissa, roundBit, stickyBit⟩ := em
  obtain ⟨rfl, hround, hsticky⟩ := h
  simp only at hround hsticky
  unfold roundedDiv
  cases roundBit with
  | false =>
      have hlow : 2 * (m % 2 ^ k) < 2 ^ k := by simpa using hround
      rw [if_pos hlow]
      cases stickyBit <;> rfl
  | true =>
      have hhigh : 2 ^ k ≤ 2 * (m % 2 ^ k) := by simpa using hround
      rw [if_neg (Nat.not_lt.2 hhigh)]
      have hpos := Nat.two_pow_pos k
      cases stickyBit with
      | false =>
          have hhalf : 2 * (m % 2 ^ k) = 2 ^ k := by
            by_contra hne
            exact absurd (hsticky.2 ⟨by omega, hne⟩) (by decide)
          rw [if_pos hhalf]
          rfl
      | true =>
          rw [if_neg (hsticky.1 rfl).2]
          rfl

end Shifted

-- ============================================================== rounding

/-- The exponent that is wanted for `m * 2 ^ e`. -/
theorem targetExponent_eq {m : Nat} {e : Int} :
    Format.binary64.targetExponent (totalExponent m e)
      = max (m.log2 + e - 52) (-1074) := by
  show max ((m.log2 : Int) + 1 + e - 53) (-1074) = _
  omega

/-- A number of `k` digits too many loses these. -/
theorem shiftToTargetExponent_eq {m k : Nat} {e : Int}
    (hk : max (m.log2 + e - 52) (-1074) = e + k) :
    shiftToTargetExponent .binary64 m e .exact
      = (ExtendedMantissa.ofMantissaAndAccuracy m .exact >>> k, e + k) := by
  have hshift : (Format.binary64.targetExponent (totalExponent m e) - e).toNat = k := by
    rw [targetExponent_eq]
    omega
  simp only [shiftToTargetExponent, shiftToExponent, hshift]

theorem roundWithAccuracy_eq {m m' : Nat} {e e' : Int} {first : ExtendedMantissa × Int}
    {em : ExtendedMantissa} (s : Sign)
    (hfirst : shiftToTargetExponent .binary64 m e .exact = first)
    (hsecond : shiftToTargetExponent .binary64 first.1.roundedMantissa first.2 .exact
      = (em, e'))
    (hm : em.mantissa = m') (hpos : 0 < m') :
    roundWithAccuracy .binary64 s m e .exact = .finite s m' e' hpos := by
  subst hm
  simp only [roundWithAccuracy, hfirst, hsecond]
  exact dif_neg (Nat.ne_of_gt hpos)

/-- A number of at least 53 digits becomes a double of 53 digits: the number in units
of the last of these, or half of that where rounding gave one digit more. -/
theorem round_exact (s : Sign) {m k : Nat} {e : Int} (hm : m.log2 = 52 + k)
    (he : -1074 ≤ e + k) :
    ∃ (m' c : Nat) (h : 0 < m'),
      roundWithAccuracy .binary64 s m e .exact = .finite s m' (e + k + c) h
        ∧ 2 ^ 52 ≤ m' ∧ m' < 2 ^ 53 ∧ c ≤ 1 ∧ m' * 2 ^ c = roundedDiv m (2 ^ k) := by
  obtain ⟨hlow, hhigh⟩ := roundedDiv_range hm
  have hrounded := (Shifted.shift (m := m) k).roundedMantissa
  -- rounding up may have given one digit more, which is shifted out again
  obtain ⟨c, hc, hlog, hdvd⟩ : ∃ c, c ≤ 1 ∧ (roundedDiv m (2 ^ k)).log2 = 52 + c
      ∧ 2 ^ c ∣ roundedDiv m (2 ^ k) := by
    by_cases htop : roundedDiv m (2 ^ k) = 2 ^ 53
    · rw [htop, Nat.log2_two_pow]
      exact ⟨1, Nat.le_refl _, rfl, by decide⟩
    · refine ⟨0, Nat.zero_le _, ?_, one_dvd _⟩
      exact (Nat.log2_eq_iff (by omega)).2 ⟨hlow, by omega⟩
  obtain ⟨hlow', hhigh'⟩ := div_range hlog
  have hfirst := shiftToTargetExponent_eq (m := m) (k := k) (e := e) (by omega)
  have hsecond := shiftToTargetExponent_eq (m := roundedDiv m (2 ^ k)) (k := c)
    (e := e + k) (by omega)
  rw [← hrounded] at hsecond
  refine ⟨_, c, by omega, roundWithAccuracy_eq s hfirst hsecond ?_ _, hlow', hhigh', hc,
    Nat.div_mul_cancel hdvd⟩
  rw [hrounded]
  exact (Shifted.shift c).mantissa

-- =============================================================== packing

theorem unpackSign_packComponents {s : Sign} {exponent : BitVec 11}
    {mantissa : BitVec 52} :
    Sign.ofBitVec (unpackSign (packComponents .binary64 s exponent mantissa)) = s := by
  have hsign : unpackSign (packComponents .binary64 s exponent mantissa) = s.toBitVec := by
    ext i hi
    simp [unpackSign, packComponents]
    grind
  rw [hsign]
  cases s <;> rfl

/-- The digits after the first, and the first put back before them. -/
theorem leading_append {m : Nat} (hlow : 2 ^ 52 ≤ m) (hhigh : m < 2 ^ 53) :
    (1#1 ++ BitVec.ofNat 52 m).toNat = m := by
  rw [BitVec.toNat_append, ← Nat.shiftLeft_add_eq_or_of_lt (BitVec.isLt _),
    Nat.shiftLeft_eq]
  simp only [BitVec.toNat_ofNat]
  omega

/-- A double of 53 digits is kept by packing, when its exponent fits. -/
theorem unpack_pack {s : Sign} {m : Nat} {e : Int} {h : 0 < m} (hlow : 2 ^ 52 ≤ m)
    (hhigh : m < 2 ^ 53) (hle : -1074 ≤ e) (hge : e ≤ 971) :
    (Float.Model.pack (.finite s m e h)).unpack = .finite s m e h := by
  have hlog : m.log2 + 1 = Format.binary64.mantissaBits :=
    congrArg (· + 1) ((Nat.log2_eq_iff (Nat.ne_of_gt h)).2 ⟨hlow, hhigh⟩)
  obtain ⟨b, hb⟩ : ∃ b : Nat, e = b - 1075 := ⟨(e + 1075).toNat, by omega⟩
  have hbiased : (e + Format.binary64.exponentBias
      + Format.binary64.mantissaBitsWithoutImplicit).toNat = b := by
    show (e + 1023 + 52).toNat = b
    omega
  show UnpackedFloat.unpack .binary64 (UnpackedFloat.pack .binary64 _) = _
  simp only [UnpackedFloat.pack, hbiased, hlog]
  rw [if_neg (by omega)]
  simp only [if_true, UnpackedFloat.unpack, unpackMantissa_packComponents,
    unpackExponent_packComponents, unpackSign_packComponents, leading_append hlow hhigh]
  have hexponent : (BitVec.ofNat 11 b).toNat = b := by
    rw [BitVec.toNat_ofNat]
    omega
  have hother {v : BitVec 11} {n : Nat} (hv : v.toNat = n) (hne : b ≠ n) :
      BitVec.ofNat 11 b ≠ v := by
    rintro rfl
    exact hne (hexponent.symm.trans hv)
  have hinfinite : BitVec.ofNat 11 b ≠ -1#11 := hother (n := 2047) rfl (by omega)
  have hzero : BitVec.ofNat 11 b ≠ 0#11 := hother (n := 0) rfl (by omega)
  rw [if_neg hinfinite, if_neg hzero]
  congr 1
  rw [hexponent]
  show (b : Int) - 1075 = e
  omega

-- ============================================================== comparing

section Order

variable {a b c : Int} {m m' : Nat}

theorem compare_mul (hc : 0 < c) : compare (a * c) (b * c) = compare a b := by
  rw [← cmp_eq_compare, ← cmp_eq_compare]
  exact cmp_mul_pos_right hc a b

theorem compare_natCast : compare (m : Int) m' = compare m m' := by
  rw [← cmp_eq_compare, ← cmp_eq_compare]
  exact Nat.strictMono_cast.cmp_map_eq m m'

theorem compare_neg : compare (-a) (-b) = (compare a b).swap := by
  rcases lt_trichotomy a b with h | rfl | h
  · rw [compare_lt_iff_lt.2 h, compare_gt_iff_gt.2 (show -a > -b by omega)]
    rfl
  · rw [Std.compare_self, Std.compare_self]
    rfl
  · rw [compare_gt_iff_gt.2 h, compare_lt_iff_lt.2 (show -a < -b by omega)]
    rfl

end Order

/-- The double is the whole number, and has all its digits. -/
def Denotes : UnpackedFloat → Int → Prop
  | .zero _, v => v = 0
  | .finite s m e _, v =>
    2 ^ 52 ≤ m ∧ m < 2 ^ 53
      ∧ ∃ k : Nat, e = k - 52 ∧ k ≤ 1023 ∧ v * 2 ^ 52 = s.apply (m * 2 ^ k : Nat)
  | _, _ => False

/-- Doubles of 53 digits are ordered by their exponents first. -/
theorem compare_digits {m m' : Nat} (k k' : Nat) (hlow : 2 ^ 52 ≤ m) (hhigh : m < 2 ^ 53)
    (hlow' : 2 ^ 52 ≤ m') (hhigh' : m' < 2 ^ 53) :
    (compare ((k : Int) - 52) (k' - 52)).then (compare m m')
      = compare (m * 2 ^ k) (m' * 2 ^ k') := by
  have hless {m m' k k' : Nat} (hhigh : m < 2 ^ 53) (hlow' : 2 ^ 52 ≤ m') (h : k < k') :
      m * 2 ^ k < m' * 2 ^ k' := by
    have hcarry : 53 + k = 52 + (k + 1) := by omega
    calc m * 2 ^ k
        < 2 ^ 53 * 2 ^ k := Nat.mul_lt_mul_of_pos_right hhigh (Nat.two_pow_pos k)
      _ = 2 ^ 52 * 2 ^ (k + 1) := by rw [← Nat.pow_add, ← Nat.pow_add, hcarry]
      _ ≤ m' * 2 ^ k' := Nat.mul_le_mul hlow' (Nat.pow_le_pow_right (by omega) h)
  rcases Nat.lt_trichotomy k k' with h | rfl | h
  · rw [compare_lt_iff_lt.2 (show (k : Int) - 52 < k' - 52 by omega),
      compare_lt_iff_lt.2 (hless hhigh hlow' h)]
    rfl
  · have hpos : (0 : Int) < (2 ^ k : Nat) := Int.natCast_pos.2 (Nat.two_pow_pos k)
    rw [Std.compare_self, ← compare_natCast (m := m * 2 ^ k), Nat.cast_mul, Nat.cast_mul,
      compare_mul hpos, compare_natCast]
    rfl
  · rw [compare_gt_iff_gt.2 (show (k : Int) - 52 > k' - 52 by omega),
      compare_gt_iff_gt.2 (hless hhigh' hlow h)]
    rfl

/-- The order of doubles is that of the whole numbers that they are. -/
theorem compare_denotes {x y : UnpackedFloat} {v w : Int} (hx : Denotes x v)
    (hy : Denotes y w) : x.compare y = some (compare v w) := by
  rw [← compare_mul (a := v) (b := w) (c := 2 ^ 52) (by decide)]
  cases x with
  | infinity | notANumber => exact hx.elim
  | zero s =>
      obtain rfl : v = 0 := hx
      cases y with
      | infinity | notANumber => exact hy.elim
      | zero s' =>
          obtain rfl : w = 0 := hy
          rfl
      | finite s' m' e' h' =>
          obtain ⟨-, -, k', -, -, hw⟩ := hy
          have hpos : 0 < m' * 2 ^ k' := Nat.mul_pos h' (Nat.two_pow_pos k')
          rw [hw, Int.zero_mul]
          cases s' with
          | positive =>
              exact congrArg some (compare_lt_iff_lt.2 (Int.natCast_pos.2 hpos)).symm
          | negative =>
              refine congrArg some (compare_gt_iff_gt.2 ?_).symm
              simp only [Sign.apply]
              omega
  | finite s m e h =>
      obtain ⟨hlow, hhigh, k, rfl, -, hv⟩ := hx
      have hpos : 0 < m * 2 ^ k := Nat.mul_pos h (Nat.two_pow_pos k)
      rw [hv]
      cases y with
      | infinity | notANumber => exact hy.elim
      | zero s' =>
          obtain rfl : w = 0 := hy
          rw [Int.zero_mul]
          cases s with
          | positive =>
              exact congrArg some (compare_gt_iff_gt.2 (Int.natCast_pos.2 hpos)).symm
          | negative =>
              refine congrArg some (compare_lt_iff_lt.2 ?_).symm
              simp only [Sign.apply]
              omega
      | finite s' m' e' h' =>
          obtain ⟨hlow', hhigh', k', rfl, -, hw⟩ := hy
          have hpos' : 0 < m' * 2 ^ k' := Nat.mul_pos h' (Nat.two_pow_pos k')
          have hdigits := compare_digits k k' hlow hhigh hlow' hhigh'
          rw [hw]
          cases s with
          | positive =>
              cases s' with
              | positive => exact congrArg some (hdigits.trans compare_natCast.symm)
              | negative =>
                  refine congrArg some (compare_gt_iff_gt.2 ?_).symm
                  simp only [Sign.apply]
                  omega
          | negative =>
              cases s' with
              | positive =>
                  refine congrArg some (compare_lt_iff_lt.2 ?_).symm
                  simp only [Sign.apply]
                  omega
              | negative =>
                  refine congrArg some ?_
                  rw [hdigits, ← compare_natCast]
                  exact compare_neg.symm

-- ============================================================ converting

section Denotes

variable {x : UnpackedFloat} {v : Int}

theorem Denotes.unpack_pack (h : Denotes x v) : (Float.Model.pack x).unpack = x := by
  cases x with
  | infinity | notANumber => exact h.elim
  | zero s => cases s <;> rfl
  | finite s m e hm =>
      obtain ⟨hlow, hhigh, k, rfl, hk, -⟩ := h
      exact Condition.unpack_pack hlow hhigh (by omega) (by omega)

theorem Denotes.neg (h : Denotes x v) : Denotes x.neg (-v) := by
  cases x with
  | infinity | notANumber => exact h.elim
  | zero s =>
      obtain rfl : v = 0 := h
      rfl
  | finite s m e hm =>
      obtain ⟨hlow, hhigh, k, he, hk, hv⟩ := h
      refine ⟨hlow, hhigh, k, he, hk, ?_⟩
      rw [Int.neg_mul, hv]
      cases s with
      | positive => rfl
      | negative => exact Int.neg_neg _

/-- What a number of at least 53 digits is rounded to. -/
theorem denotes_round {m k j : Nat} {e : Int} (hm : m.log2 = 52 + k) (he : e + k = j - 52)
    (hj : j ≤ 1022) (hv : v * 2 ^ 52 = (roundedDiv m (2 ^ k) * 2 ^ j : Nat)) :
    Denotes (roundWithAccuracy .binary64 .positive m e .exact) v := by
  obtain ⟨m', c, h, heq, hlow, hhigh, hc, hround⟩ :=
    round_exact .positive hm (e := e) (by omega)
  rw [heq]
  refine ⟨hlow, hhigh, j + c, ?_, by omega, ?_⟩
  · omega
  · rw [hv, ← hround, Nat.mul_assoc, ← Nat.pow_add, Nat.add_comm c]
    rfl

end Denotes

theorem log2_mul_two_pow {n k : Nat} (h : n ≠ 0) : (n * 2 ^ k).log2 = n.log2 + k := by
  have hpos := Nat.two_pow_pos k
  rw [Nat.log2_eq_iff (Nat.mul_ne_zero h hpos.ne'), Nat.pow_add, ← Nat.add_right_comm,
    Nat.pow_add]
  exact ⟨Nat.mul_le_mul_right _ (Nat.log2_self_le h),
    Nat.mul_lt_mul_of_pos_right Nat.lt_log2_self hpos⟩

/-- A product with one is what is multiplied. -/
theorem Denotes.mul_one {x : UnpackedFloat} {v : Int} (hx : Denotes x v) :
    UnpackedFloat.mul .binary64 x (.finite .positive (2 ^ 52) (-52) (by decide)) = x := by
  cases x with
  | infinity | notANumber => exact hx.elim
  | zero s => cases s <;> rfl
  | finite s m e h =>
      obtain ⟨hlow, hhigh, k, rfl, -, -⟩ := hx
      have hlog : (m * 2 ^ 52).log2 = 52 + 52 := by
        rw [log2_mul_two_pow h.ne', (Nat.log2_eq_iff h.ne').2 ⟨hlow, hhigh⟩]
      obtain ⟨m', c, h', heq, hlow', -, hc, hround⟩ :=
        round_exact (s * .positive) hlog (e := k - 52 + -52) (by omega)
      have hscale : roundedDiv (m * 2 ^ 52) (1 * 2 ^ 52) = roundedDiv m 1 :=
        roundedDiv_mul (by decide)
      rw [Nat.one_mul] at hscale
      rw [hscale, roundedDiv_one] at hround
      -- nothing is lost, so that rounding gives no digit more
      obtain rfl : c = 0 := by
        by_contra hne
        obtain rfl : c = 1 := by omega
        omega
      obtain rfl : m' = m := by rw [← hround, Nat.pow_zero, Nat.mul_one]
      refine heq.trans ?_
      congr 1
      · cases s <;> rfl
      · omega

/-- A number of at most 53 digits is converted as it is. -/
theorem denotes_convert {n : Nat} (hn : n < 2 ^ 53) :
    Denotes (UnpackedFloat.ofNat .binary64 n) n := by
  by_cases hzero : n = 0
  · subst hzero
    rfl
  have hlog : n.log2 ≤ 52 := by
    have := (Nat.log2_lt hzero).2 hn
    omega
  obtain ⟨k, hk⟩ : ∃ k, 52 = n.log2 + k := ⟨52 - n.log2, by omega⟩
  have hconvert : UnpackedFloat.ofNat .binary64 n
      = roundWithAccuracy .binary64 .positive (n * 2 ^ k) (0 - k) .exact := by
    have hsign : compare (n : Int) 0 = .gt := compare_gt_iff_gt.2 (by omega)
    have hshift : (0 - Format.binary64.targetExponent (totalExponent n 0)).toNat = k := by
      rw [targetExponent_eq]
      omega
    simp only [UnpackedFloat.ofNat, UnpackedFloat.ofInt, UnpackedFloat.normalize, hsign,
      UnpackedFloat.round, decreaseExponent, Int.toNat_natCast, hshift, Nat.shiftLeft_eq]
  rw [hconvert]
  have hm : (n * 2 ^ k).log2 = 52 + 0 := by
    rw [log2_mul_two_pow hzero]
    omega
  refine denotes_round hm (j := n.log2) (by omega) (by omega) ?_
  rw [Nat.pow_zero, roundedDiv_one, Nat.mul_assoc, ← Nat.pow_add, Nat.add_comm k, ← hk]
  rfl

theorem denotes_ofNat_small {n : Nat} (hn : n < 2 ^ 53) :
    Denotes (Float.ofNat n).toModel.unpack n := by
  have hfast : Float.ofNat n = n.toUInt64.toFloat * Float.ofBits 0x3FF0000000000000 := by
    show Float.ofScientific n false 0 = _
    unfold Float.ofScientific
    rw [dif_pos ⟨hn, by omega⟩]
    rfl
  have hnat : n.toUInt64.toNat = n := Nat.mod_eq_of_lt (by omega)
  have hconvert := denotes_convert hn
  have hone : (Float.ofBits 0x3FF0000000000000).toModel.unpack
      = .finite .positive (2 ^ 52) (-52) (by decide) := rfl
  rw [hfast]
  show Denotes (Float.Model.pack (UnpackedFloat.mul .binary64
    (Float.Model.pack (UnpackedFloat.ofNat .binary64 n.toUInt64.toNat)).unpack
    (Float.ofBits 0x3FF0000000000000).toModel.unpack)).unpack n
  rw [hnat, hconvert.unpack_pack, hone, hconvert.mul_one, hconvert.unpack_pack]
  exact hconvert

theorem denotes_ofNat_large {n : Nat} (hlow : 2 ^ 53 ≤ n)
    (hhigh : n ≤ 0x8000000000000000) :
    Denotes (Float.ofNat n).toModel.unpack (nearestNat n) := by
  have hslow : Float.ofNat n = .ofModel (.ofScientific n 0) := by
    show Float.ofScientific n false 0 = _
    unfold Float.ofScientific
    rw [dif_neg (by omega)]
    rfl
  have hzero : n ≠ 0 := by omega
  obtain ⟨k, hk⟩ : ∃ k, n.log2 = 52 + (k + 1) := ⟨n.log2 - 53, by
    have := (Nat.le_log2 hzero).2 hlow
    omega⟩
  have hlog : n.log2 ≤ 63 := by
    have := (Nat.log2_lt hzero (k := 64)).2 (by omega)
    omega
  have hconvert : UnpackedFloat.ofScientific .binary64 n 0
      = roundWithAccuracy .binary64 .positive (n * 2 ^ 53) (-53) .exact := by
    unfold UnpackedFloat.ofScientific
    have hrange : ¬ (0 : Int) < -(2 ^ 11 + n.log2) := by omega
    rw [dif_neg hzero, if_neg (by decide), if_neg hrange, if_pos (by decide)]
    show roundWithAccuracy .binary64 .positive (n <<< 53 * 1) (-53) .exact = _
    rw [Nat.mul_one, Nat.shiftLeft_eq]
  have hdenotes : Denotes (UnpackedFloat.ofScientific .binary64 n 0) (nearestNat n) := by
    rw [hconvert]
    have hm : (n * 2 ^ 53).log2 = 52 + (n.log2 + 1) := by
      rw [log2_mul_two_pow hzero]
      omega
    refine denotes_round hm (j := n.log2) (by omega) (by omega) ?_
    have hunit : unitOf n = 2 ^ (k + 1) := by rw [unitOf, show n.log2 - 52 = k + 1 by omega]
    have hlost : 2 ^ (n.log2 + 1) = unitOf n * 2 ^ 53 := by
      rw [hunit, ← Nat.pow_add, show k + 1 + 53 = n.log2 + 1 by omega]
    have hkept : 2 ^ n.log2 = unitOf n * 2 ^ 52 := by
      rw [hunit, ← Nat.pow_add, show k + 1 + 52 = n.log2 by omega]
    rw [hlost, roundedDiv_mul (by decide), hkept, ← Nat.mul_assoc]
    rfl
  rw [hslow]
  show Denotes (Float.Model.pack (UnpackedFloat.ofScientific .binary64 n 0)).unpack _
  rw [hdenotes.unpack_pack]
  exact hdenotes

/-- A whole number becomes the nearest double. -/
theorem denotes_ofNat {n : Nat} (hn : n ≤ 0x8000000000000000) :
    Denotes (Float.ofNat n).toModel.unpack (nearestNat n) := by
  by_cases hsmall : n < 2 ^ 53
  · rw [nearestNat_of_le (by omega)]
    exact denotes_ofNat_small hsmall
  · exact denotes_ofNat_large (by omega) hn

theorem denotes_ofInt {a : Int} (ha : a.natAbs ≤ 0x8000000000000000) :
    Denotes (Float.ofInt a).toModel.unpack (nearest a) := by
  cases a with
  | ofNat n => exact denotes_ofNat ha
  | negSucc n =>
      have hnat := denotes_ofNat (n := n + 1) ha
      show Denotes (Float.Model.pack _).unpack _
      rw [hnat.neg.unpack_pack]
      exact hnat.neg

-- ============================================================== outcomes

namespace Value

theorem float_lt_iff {x y : Float} :
    x < y ↔ x.toModel.unpack.compare y.toModel.unpack = some .lt := by
  show decide (x.toModel < y.toModel) = true ↔ _
  rw [decide_eq_true_iff]
  exact beq_iff_eq

theorem float_beq_iff {x y : Float} :
    (x == y) = true ↔ x.toModel.unpack.compare y.toModel.unpack = some .eq := by
  show (x.toModel.unpack.compare y.toModel.unpack == some .eq) = true ↔ _
  exact beq_iff_eq

theorem orderFloats?_denotes {x y : Float} {v w : Int} (hx : Denotes x.toModel.unpack v)
    (hy : Denotes y.toModel.unpack w) : orderFloats? x y = some (compare v w) := by
  simp only [orderFloats?, GT.gt, float_lt_iff, float_beq_iff, compare_denotes hx hy,
    compare_denotes hy hx, Option.some.injEq, compare_lt_iff_lt, compare_eq_iff_eq]
  rcases lt_trichotomy v w with h | rfl | h
  · rw [if_pos h, compare_lt_iff_lt.2 h]
  · rw [if_neg (lt_irrefl v), if_pos rfl, Std.compare_self]
  · rw [if_neg h.not_gt, if_neg h.ne', if_pos h, compare_gt_iff_gt.2 h]

/-- Whole numbers are ordered as the doubles that are nearest to them. -/
theorem order?_whole (a b : Int64) :
    order? (.whole a) (.whole b) = some (compare (nearest a.toInt) (nearest b.toInt)) := by
  refine orderFloats?_denotes (denotes_ofInt ?_) (denotes_ofInt ?_)
  · have := a.le_toInt
    have := a.toInt_lt
    omega
  · have := b.le_toInt
    have := b.toInt_lt
    omega

end Value

end AblOutline.Condition
