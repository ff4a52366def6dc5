import StatAlmanac.Proofs.Binary64.Shortest

/-!
How far rounding moves a number: at most by one part in `2 ^ 53`, and among the
numbers of the least exponent at most by half of the least number.
-/

namespace StatAlmanac.Binary64

open Decimal

def roundoff : ℚ := 1 / 2 ^ 53

def underflow : ℚ := (2 : ℚ) ^ (-1075 : Int)

theorem roundoff_pos : 0 < roundoff := by norm_num [roundoff]

theorem underflow_pos : 0 < underflow := Binary.two_zpow_pos _

def size (x : Float) : ℚ := (Binary.ofBits x.toBits).value

variable {x : Float} {s : Float.Model.UnpackedFloat.Sign} {b : Binary} {q : ℚ}

theorem Is.size_eq (h : Is x s b) : size x = b.value := by rw [size, h.ofBits]

theorem IsZero.size_eq (h : IsZero x s) : size x = 0 := by
  rw [size, Binary.value, h.ofBits, Nat.cast_zero, zero_mul]

theorem size_nonneg (x : Float) : 0 ≤ size x :=
  mul_nonneg (Nat.cast_nonneg _) (Binary.two_zpow_pos _).le

theorem Is.value_nonneg (h : Is x s b) : 0 ≤ b.value := h.size_eq ▸ size_nonneg x

/-- Both ends lie at most half a unit of the last place away. -/
theorem abs_sub_le_unit (h : b.Takes q) : |b.value - q| ≤ 2 * (2 : ℚ) ^ (b.exponent - 2) := by
  have hunit := Binary.two_zpow_pos (b.exponent - 2)
  have hlow := h.low_le
  have hhigh := h.le_high
  rw [Binary.low] at hlow
  rw [Binary.high] at hhigh
  rw [value_eq, abs_le]
  constructor
  · linarith
  · split at hlow <;> linarith

/-- What is not tiny does not round to a number of the least exponent. -/
theorem least_lt_exponent (hb : b.IsStandard) (h : b.Takes q) (hq : (2 : ℚ) ^ (-1021 : Int) ≤ q) :
    -1074 < b.exponent := by
  refine lt_of_le_of_ne hb.least fun heq =>
    absurd (hq.trans (h.le_high.trans hb.high_le)) (not_le_of_gt ?_)
  rw [← heq, show (-1074 - 2 : Int) = -1076 by norm_num,
    show (-1021 : Int) = ((55 : Nat) : Int) + -1076 by norm_num, zpow_add₀ (by norm_num),
    zpow_natCast]
  exact mul_lt_mul_of_pos_right (by norm_num) (Binary.two_zpow_pos (-1076))

theorem abs_sub_le_of_exponent (hb : b.IsStandard) (he : -1074 < b.exponent) (h : b.Takes q) :
    |b.value - q| ≤ roundoff * q := by
  have hunit := Binary.two_zpow_pos (b.exponent - 2)
  have hvalue := value_eq b
  have hhalf := abs_le.1 (abs_sub_le_unit h)
  -- in units of the ends, `q` is at least `2 ^ 54`, or just below it and the lower end near
  have hscale : (2 ^ 54 : ℚ) * (2 : ℚ) ^ (b.exponent - 2) ≤ b.value :=
    hvalue ▸ mul_le_mul_of_nonneg_right (by linarith [hb.le_significand he]) hunit.le
  rw [roundoff, abs_le]
  rcases le_total b.value q with hle | hle
  · constructor <;> linarith
  · have hlow := h.low_le
    rw [Binary.low, sub_mul, ← hvalue] at hlow
    by_cases hn : b.narrow
    · rw [if_pos hn, one_mul] at hlow
      constructor <;> linarith
    · have hscale' : (2 ^ 54 + 4 : ℚ) * (2 : ℚ) ^ (b.exponent - 2) ≤ b.value :=
        hvalue ▸ mul_le_mul_of_nonneg_right (by linarith [hb.lt_significand he hn]) hunit.le
      rw [if_neg hn] at hlow
      constructor <;> linarith

theorem abs_sub_le (hb : b.IsStandard) (h : b.Takes q) (hq : 0 ≤ q) :
    |b.value - q| ≤ roundoff * q + underflow := by
  have hmul := mul_nonneg roundoff_pos.le hq
  rcases hb.least.lt_or_eq with he | he
  · exact (abs_sub_le_of_exponent hb he h).trans (by linarith [underflow_pos])
  · refine (abs_sub_le_unit h).trans ?_
    rw [← he, show (-1074 - 2 : Int) = -1076 by norm_num, underflow,
      show (-1075 : Int) = 1 + -1076 by norm_num, zpow_add₀ (by norm_num), zpow_one]
    linarith

theorem Nearest.abs_sub_le (h : Nearest x s q) (hq : 0 ≤ q) :
    |size x - q| ≤ roundoff * q + underflow := by
  cases h with
  | zero h hle =>
      rw [h.size_eq, zero_sub, abs_neg, abs_of_nonneg hq]
      exact hle.trans (le_add_of_nonneg_left (mul_nonneg roundoff_pos.le hq))
  | number h ht =>
      rw [h.size_eq]
      exact Binary64.abs_sub_le h.isStandard ht hq

/-- A rounded number that is not tiny is no zero, has all its bits and a small relative error. -/
theorem Nearest.normal (h : Nearest x s q) (hq : (2 : ℚ) ^ (-1021 : Int) ≤ q) :
    ∃ b, Is x s b ∧ b.Takes q ∧ 2 ^ 52 ≤ b.significand ∧ |b.value - q| ≤ roundoff * q := by
  cases h with
  | zero h hle =>
      have : (2 : ℚ) ^ (-1075 : Int) < (2 : ℚ) ^ (-1021 : Int) :=
        zpow_lt_zpow_right₀ (by norm_num) (by norm_num)
      exact absurd (hq.trans hle) (not_le_of_gt this)
  | @number b h ht =>
      have he := least_lt_exponent h.isStandard ht hq
      exact ⟨b, h, ht, h.isStandard.full.resolve_right he.ne',
        abs_sub_le_of_exponent h.isStandard he ht⟩

/-! ### Errors of products and quotients -/

section Products

variable {a b A B : ℚ}

theorem mul_close (ha : 0 ≤ a) (hb : 0 ≤ b) (hA : |A - a| ≤ roundoff * a)
    (hB : |B - b| ≤ roundoff * b) : |A * B - a * b| ≤ 5 / 2 * roundoff * (a * b) := by
  obtain ⟨hA1, hA2⟩ := abs_le.1 hA
  obtain ⟨hB1, hB2⟩ := abs_le.1 hB
  have hprod := mul_nonneg ha hb
  have hhigh : A * B ≤ ((1 + roundoff) * a) * ((1 + roundoff) * b) :=
    mul_le_mul (by linarith) (by linarith) (by rw [roundoff] at *; linarith)
      (by rw [roundoff]; positivity)
  have hlow : ((1 - roundoff) * a) * ((1 - roundoff) * b) ≤ A * B :=
    mul_le_mul (by linarith) (by linarith) (by rw [roundoff]; positivity)
      (by rw [roundoff] at *; linarith)
  have hhigh' : ((1 + roundoff) * a) * ((1 + roundoff) * b) =
      (1 + roundoff) ^ 2 * (a * b) := by ring
  have hlow' : ((1 - roundoff) * a) * ((1 - roundoff) * b) = (1 - roundoff) ^ 2 * (a * b) := by ring
  rw [hhigh'] at hhigh
  rw [hlow'] at hlow
  rw [roundoff] at *
  rw [abs_le]
  constructor <;> linarith

/-- A quotient is too large by what its dividend is too large and its divisor too small. -/
theorem quotient_le {r : ℚ} (hr : 0 ≤ r) (hr' : r ≤ 4) (ha : 0 ≤ a) (hb : 0 < b)
    (hB : (1 - roundoff) * b ≤ B) :
    a * (1 + r * roundoff) / B ≤ (1 + (r + 3 / 2) * roundoff) * (a / b) := by
  have hu : roundoff ≤ 1 / 100 := by norm_num [roundoff]
  have hu0 := roundoff_pos
  have hru : 0 ≤ r * roundoff := mul_nonneg hr hu0.le
  have hru' : r * roundoff ≤ 4 / 100 := by nlinarith
  have hBpos : 0 < (1 - roundoff) * b := mul_pos (by linarith) hb
  calc a * (1 + r * roundoff) / B ≤ a * (1 + r * roundoff) / ((1 - roundoff) * b) := by
        gcongr
    _ = (1 + r * roundoff) / (1 - roundoff) * (a / b) := by
        field_simp
    _ ≤ _ := by
        apply mul_le_mul_of_nonneg_right _ (div_nonneg ha hb.le)
        rw [div_le_iff₀ (by linarith)]
        nlinarith

theorem le_quotient {r : ℚ} (hr : 0 ≤ r) (hr' : r ≤ 4) (ha : 0 ≤ a) (hb : 0 < b) (hBpos : 0 < B)
    (hB : B ≤ (1 + roundoff) * b) :
    (1 - (r + 3 / 2) * roundoff) * (a / b) ≤ a * (1 - r * roundoff) / B := by
  have hu : roundoff ≤ 1 / 100 := by norm_num [roundoff]
  have hu0 := roundoff_pos
  have hru : 0 ≤ r * roundoff := mul_nonneg hr hu0.le
  have hru' : r * roundoff ≤ 4 / 100 := by nlinarith
  calc (1 - (r + 3 / 2) * roundoff) * (a / b) ≤ (1 - r * roundoff) / (1 + roundoff) * (a / b) := by
        apply mul_le_mul_of_nonneg_right _ (div_nonneg ha hb.le)
        rw [le_div_iff₀ (by linarith)]
        nlinarith
    _ = a * (1 - r * roundoff) / ((1 + roundoff) * b) := by
        field_simp
    _ ≤ _ := by
        have : 0 ≤ a * (1 - r * roundoff) := mul_nonneg ha (by linarith)
        gcongr

theorem div_close {r δ : ℚ} (hr : 0 ≤ r) (hr' : r ≤ 4) (hδ : 0 ≤ δ) (ha : 0 ≤ a) (hb : 1 ≤ b)
    (hA : |A - a| ≤ r * roundoff * a + δ) (hB : |B - b| ≤ roundoff * b) :
    |A / B - a / b| ≤ (r + 3 / 2) * roundoff * (a / b) + 3 / 2 * δ := by
  obtain ⟨hA1, hA2⟩ := abs_le.1 hA
  obtain ⟨hB1, hB2⟩ := abs_le.1 hB
  have hu : roundoff ≤ 1 / 100 := by norm_num [roundoff]
  have hBlow : (1 - roundoff) * b ≤ B := by linarith
  have hone : 1 ≤ 3 / 2 * B := by nlinarith
  have hBpos : 0 < B := by linarith
  -- the own error of the dividend grows by the error of the divisor at most
  have hrest : δ / B ≤ 3 / 2 * δ := by
    rw [div_le_iff₀ hBpos]
    nlinarith
  have hhigh := quotient_le hr hr' ha (by linarith) hBlow
  have hlow := le_quotient hr hr' ha (by linarith) hBpos (by linarith : B ≤ (1 + roundoff) * b)
  have hAhigh : A / B ≤ a * (1 + r * roundoff) / B + δ / B := by
    rw [← add_div]
    gcongr
    linarith
  have hAlow : a * (1 - r * roundoff) / B - δ / B ≤ A / B := by
    rw [← sub_div]
    gcongr
    linarith
  rw [abs_le]
  constructor <;> linarith

end Products

/-- What is read back for a written magnitude: the reader computes close to it, the writer wrote
close to the number. -/
theorem close_of_errors {X v q y : ℚ} (hv : 0 ≤ v)
    (hX : |X - v| ≤ roundoff * v + underflow)
    (hq : |q - v| ≤ 11 / 2 * roundoff * v + 3 / 2 * underflow)
    (hy : |y - q| ≤ roundoff * q + underflow) :
    |y - X| ≤ 8 * roundoff * X + 4 * underflow := by
  obtain ⟨hX1, hX2⟩ := abs_le.1 hX
  obtain ⟨hq1, hq2⟩ := abs_le.1 hq
  obtain ⟨hy1, hy2⟩ := abs_le.1 hy
  have hη := underflow_pos
  rw [roundoff] at *
  rw [abs_le]
  constructor <;> linarith

end StatAlmanac.Binary64
