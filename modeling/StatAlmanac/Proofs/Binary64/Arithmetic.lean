import StatAlmanac.Proofs.Binary64.Packing
import StatAlmanac.Json.Number

/-!
Binary64 arithmetic. A product, a quotient, a natural number and a power of ten are each
the number that their exact value rounds to, as long as that is not too large.
-/

namespace StatAlmanac.Binary64

open Float.Model Float.Model.UnpackedFloat Decimal

/-! ### What a rational rounds to -/

/-- What is no less rounds to infinity: halfway between the largest number and the next power of
two. -/
def overflow : Nat := (2 ^ 54 - 1) * 2 ^ 970

/-- `x` is finite and has this sign, and `q` rounds to it. -/
inductive Nearest (x : Float) (sign : Sign) (q : ℚ) : Prop
  | zero (h : IsZero x sign) (hq : q ≤ (2 : ℚ) ^ (-1075 : Int))
  | number {b : Binary} (h : Is x sign b) (hq : b.Takes q)

variable {x y : Float} {s t : Sign} {a b : Binary} {q r : ℚ}

theorem cast_overflow (j : Nat) :
    (((2 ^ 54 - 1) * 2 ^ j : Nat) : ℚ) = (2 ^ 54 - 1) * (2 : ℚ) ^ (j : Int) := by
  rw [zpow_natCast]
  push_cast
  norm_num

theorem overflow_le_low (hb : b.IsStandard) (he : 971 < b.exponent) : (overflow : ℚ) ≤ b.low := by
  refine le_trans ?_ (hb.le_low (by omega))
  rw [overflow, cast_overflow]
  exact mul_le_mul_of_nonneg_left (zpow_le_zpow_right₀ (by norm_num) (by omega)) (by norm_num)

/-- The largest number has an odd significand, so the upper end of what rounds to it does not belong
to that. -/
theorem lt_overflow_of_takes (hb : b.IsStandard) (he : b.exponent ≤ 971) (h : b.Takes q) :
    q < overflow := by
  have hunit := Binary.two_zpow_pos (b.exponent - 2)
  have hend : (overflow : ℚ) = (2 ^ 55 - 2) * (2 : ℚ) ^ (969 : Int) := by
    rw [overflow, cast_overflow, show ((970 : Nat) : Int) = 1 + 969 by norm_num,
      zpow_add₀ (by norm_num)]
    ring
  have hle : (2 : ℚ) ^ (b.exponent - 2) ≤ 2 ^ (969 : Int) :=
    zpow_le_zpow_right₀ (by norm_num) (by omega)
  rw [hend]
  rcases h.le_high.lt_or_eq with hlt | heq
  · refine hlt.trans_le (hb.high_le.trans ?_)
    exact mul_le_mul_of_nonneg_left hle (by norm_num)
  · have hlast : (b.significand : ℚ) + 1 ≠ 2 ^ 53 := fun hlast => by
      have : b.significand + 1 = 2 ^ 53 := by exact_mod_cast hlast
      exact (h.off_ends (by omega)).2 heq
    have hlt : (b.significand : ℚ) + 1 ≤ 2 ^ 53 := by exact_mod_cast hb.lt
    have hinside : (4 * b.significand + 2 : ℚ) < 2 ^ 55 - 2 := by
      linarith [lt_of_le_of_ne hlt hlast]
    calc q = (4 * b.significand + 2) * (2 : ℚ) ^ (b.exponent - 2) := heq
      _ < (2 ^ 55 - 2) * (2 : ℚ) ^ (b.exponent - 2) := mul_lt_mul_of_pos_right hinside hunit
      _ ≤ _ := mul_le_mul_of_nonneg_left hle (by norm_num)

theorem Rounds.nearest {u : UnpackedFloat} (h : Rounds s q u) (hq : q < overflow)
    (hx : x.toModel = Float.Model.pack u) : Nearest x s q := by
  have hunpack : x.toModel.unpack =
      UnpackedFloat.unpack Format.binary64 (UnpackedFloat.pack Format.binary64 u) := by
    rw [hx]
    rfl
  cases h with
  | zero hzero => exact .zero (hunpack.trans (unpack_pack_zero s)) hzero
  | @finite b hb ht =>
      have hle : b.exponent ≤ 971 := by
        by_contra hgt
        exact absurd (overflow_le_low hb (by omega)) (not_le_of_gt (ht.low_le.trans_lt hq))
      exact .number ⟨hb, hunpack.trans (unpack_pack hb hle s)⟩ ht

theorem Nearest.isFinite (h : Nearest x s q) : x.isFinite = true := by
  cases h with
  | zero h => exact h.isFinite
  | number h => exact h.isFinite

theorem Nearest.isNegative (h : Nearest x s q) : isNegative x = (s == .negative) := by
  cases h with
  | zero h => exact h.isNegative
  | number h => exact h.isNegative

theorem Nearest.neg (h : Nearest x s q) : Nearest (-x) (-s) q := by
  cases h with
  | zero h hq => exact .zero h.neg hq
  | number h hq => exact .number h.neg hq

/-! ### Exact values -/

theorem takes_value (b : Binary) : b.Takes b.value := by
  have hunit := Binary.two_zpow_pos (b.exponent - 2)
  apply Binary.takes_of_inside <;> rw [value_eq]
  · rw [Binary.low]
    apply mul_lt_mul_of_pos_right _ hunit
    split <;> linarith
  · rw [Binary.high]
    apply mul_lt_mul_of_pos_right _ hunit
    linarith

theorem lt_of_takes (hb : b.IsStandard) (h : b.Takes q) : (2 : ℚ) ^ (-1075 : Int) < q := by
  have hone : (1 : ℚ) ≤ b.significand := by exact_mod_cast hb.pos
  have hunit : (2 : ℚ) ^ (-1076 : Int) ≤ (2 : ℚ) ^ (b.exponent - 2) :=
    zpow_le_zpow_right₀ (by norm_num) (by have := hb.least; omega)
  have hhalf : (2 : ℚ) ^ (-1075 : Int) = 2 * (2 : ℚ) ^ (-1076 : Int) := by
    rw [show (-1075 : Int) = 1 + -1076 by norm_num, zpow_add₀ (by norm_num), zpow_one]
  have hpos := Binary.two_zpow_pos (-1076)
  by_cases hodd : b.significand = 1
  · -- the end itself rounds to zero, as one is odd
    have hne := (h.off_ends (by omega)).1
    have hle := h.low_le
    have hwide : b.narrow = false := by
      by_contra hn
      have := (hb.narrow_iff.1 (by simpa using hn)).1
      omega
    simp only [Binary.low, hwide, hodd, Bool.false_eq_true, if_false, Nat.cast_one] at hne hle
    have := lt_of_le_of_ne hle hne.symm
    linarith
  · have htwo : (2 : ℚ) ≤ b.significand := by
      exact_mod_cast (by have := hb.pos; omega : 2 ≤ b.significand)
    refine lt_of_lt_of_le ?_ h.low_le
    rw [hhalf, Binary.low]
    have hcoef : (3 : ℚ) ≤ 4 * b.significand - if b.narrow then 1 else 2 := by split <;> linarith
    calc 2 * (2 : ℚ) ^ (-1076 : Int) < 3 * (2 : ℚ) ^ (-1076 : Int) := by linarith
      _ ≤ _ := mul_le_mul hcoef hunit hpos.le (by linarith)

/-- A number is fixed by its sign and by anything that rounds to it. -/
theorem Nearest.eq (hx : Nearest x s q) (hy : Nearest y s q) : x = y := by
  cases hx with
  | zero hx hq =>
      cases hy with
      | zero hy => exact hx.eq hy
      | number hy hq' => exact absurd (lt_of_takes hy.isStandard hq') (not_lt_of_ge hq)
  | number hx hq =>
      cases hy with
      | zero hy hq' => exact absurd (lt_of_takes hx.isStandard hq) (not_lt_of_ge hq')
      | number hy hq' =>
          obtain rfl := Binary.eq_of_takes hx.isStandard hy.isStandard hq hq'
          exact hx.eq hy

/-- A significand of at most 53 bits stands for a number, unless its exponent is out of range. -/
theorem exists_standard {n : Nat} {e : Int} (hpos : 0 < n) (hn : n < 2 ^ 53) (he : -1074 ≤ e) :
    ∃ b : Binary, b.IsStandard ∧ b.value = n * (2 : ℚ) ^ e := by
  obtain ⟨k, hk⟩ : ∃ k : Nat, k = min (52 - n.log2) (e + 1074).toNat := ⟨_, rfl⟩
  have hself := Nat.log2_self_le hpos.ne'
  have hlt : n < 2 ^ (n.log2 + 1) := Nat.lt_log2_self
  have hlog := log2_le hn
  refine ⟨.standard (n * 2 ^ k) (e - k),
    Binary.isStandard_standard (by positivity) ?_ (by omega) ?_, ?_⟩
  · calc n * 2 ^ k < 2 ^ (n.log2 + 1) * 2 ^ k := by gcongr
      _ = 2 ^ (n.log2 + 1 + k) := (pow_add ..).symm
      _ ≤ 2 ^ 53 := Nat.pow_le_pow_right (by norm_num) (by omega)
  · by_cases hfull : k = 52 - n.log2
    · left
      calc 2 ^ 52 = 2 ^ (n.log2 + k) := by congr 1; omega
        _ = 2 ^ n.log2 * 2 ^ k := pow_add ..
        _ ≤ n * 2 ^ k := by gcongr
    · right
      omega
  · simp only [Binary.value, Binary.standard]
    rw [zpow_sub₀ (by norm_num), zpow_natCast]
    push_cast
    field_simp

theorem Nearest.is_of_takes (hb : b.IsStandard) (h : Nearest x s q) (ht : b.Takes q) :
    Is x s b := by
  cases h with
  | zero h hq => exact absurd (lt_of_takes hb ht) (not_lt_of_ge hq)
  | number h hq => exact Binary.eq_of_takes h.isStandard hb hq ht ▸ h

theorem Nearest.value_eq (hb : b.IsStandard) (h : Nearest x s b.value) : Is x s b :=
  h.is_of_takes hb (takes_value b)

/-! ### Products and quotients -/

theorem target_of_full {m : Nat} {e : Int} (h : 2 ^ 52 ≤ m ∨ e ≤ -1074) : e ≤ target m e := by
  rw [target]
  rcases h with hm | he
  · have := (Nat.le_log2 (by omega)).2 hm
    omega
  · omega

theorem mul_rounds (s t : Sign) (ha : 0 < a.significand) (hb : 0 < b.significand)
    (hfull : 2 ^ 52 ≤ a.significand * b.significand) :
    Rounds (s * t) (a.value * b.value)
      (UnpackedFloat.mul Format.binary64 (.finite s a.significand a.exponent ha)
        (.finite t b.significand b.exponent hb)) := by
  have hvalue : a.value * b.value =
      ((a.significand * b.significand : Nat) : ℚ) * (2 : ℚ) ^ (a.exponent + b.exponent) := by
    rw [Binary.value, Binary.value, zpow_add₀ (by norm_num)]
    push_cast
    ring
  exact hvalue ▸ round_exact (s * t) (target_of_full (.inl hfull))

/-- A product with a factor that has all its bits. -/
theorem mul_nearest (hx : Is x s a) (hy : Is y t b) (hfull : 2 ^ 52 ≤ b.significand)
    (hlt : a.value * b.value < overflow) : Nearest (x * y) (s * t) (a.value * b.value) := by
  have hpos := hx.isStandard.pos
  refine (mul_rounds s t hpos hy.isStandard.pos
    (hfull.trans (Nat.le_mul_of_pos_left _ hpos))).nearest hlt ?_
  show Float.Model.pack (UnpackedFloat.mul _ x.toModel.unpack y.toModel.unpack) = _
  rw [hx.unpack_eq, hy.unpack_eq]

theorem describes_div (m : Nat) {n : Nat} (hn : 0 < n) :
    Describes (.ofMantissaAndAccuracy (m / n) (accuracyOfFraction (m % n) n)) ((m : ℚ) / n) := by
  have hn' : (0 : ℚ) < n := by exact_mod_cast hn
  obtain ⟨k, hk⟩ : ∃ k, m / n = k := ⟨_, rfl⟩
  obtain ⟨r, hr⟩ : ∃ r, m % n = r := ⟨_, rfl⟩
  have hlt : (r : ℚ) / n < 1 := by
    rw [div_lt_one hn', ← hr]
    exact_mod_cast Nat.mod_lt m hn
  have hsplit : (m : ℚ) / n = k + (r : ℚ) / n := by
    have : ((n * k + r : Nat) : ℚ) = m := by rw [← hk, ← hr, Nat.div_add_mod]
    push_cast at this
    rw [← this]
    field_simp
  have hhalf : (r : ℚ) / n - 1 / 2 = ((2 * r : Nat) - (n : ℚ)) / (2 * n) := by
    push_cast
    field_simp
  rw [hk, hr, hsplit, accuracyOfFraction]
  by_cases hzero : r = 0
  · rw [if_pos hzero, hzero, Nat.cast_zero, zero_div, add_zero]
    exact describes_exact k
  · have hpos : 0 < (r : ℚ) / n := div_pos (by exact_mod_cast Nat.pos_of_ne_zero hzero) hn'
    rw [if_neg hzero]
    -- the rest against one half
    rcases hcmp : compare (2 * r) n with _ | _ | _
    · have hlow : (r : ℚ) / n - 1 / 2 < 0 := by
        rw [hhalf]
        refine div_neg_of_neg_of_pos (sub_neg.2 ?_) (by positivity)
        exact_mod_cast Nat.compare_eq_lt.1 hcmp
      constructor <;> simp only [kept, ExtendedMantissa.ofMantissaAndAccuracy]
      · simpa using hpos.le
      · simp
        linarith
      · simpa using hpos.ne'
    · have heq : (r : ℚ) / n - 1 / 2 = 0 := by
        rw [hhalf, Nat.compare_eq_eq.1 hcmp, sub_self, zero_div]
      constructor <;> simp only [kept, ExtendedMantissa.ofMantissaAndAccuracy] <;>
        simp <;> linarith
    · have hhigh : 0 < (r : ℚ) / n - 1 / 2 := by
        rw [hhalf]
        refine div_pos (sub_pos.2 ?_) (by positivity)
        exact_mod_cast Nat.compare_eq_gt.1 hcmp
      constructor <;> simp only [kept, ExtendedMantissa.ofMantissaAndAccuracy] <;>
        simp <;> linarith

def quotientExponent (a b : Binary) : Int :=
  min (a.exponent - b.exponent)
    (max (a.significand.log2 + 1 + a.exponent - (b.significand.log2 + 1 + b.exponent) - 53) (-1074))

/-- At this exponent a quotient has all its bits, or the exponent is low enough. -/
theorem quotientExponent_le (hpos : 0 < a.significand) (hpos' : 0 < b.significand) :
    quotientExponent a b ≤ target
      (a.significand <<< (a.exponent - b.exponent - quotientExponent a b).toNat / b.significand)
      (quotientExponent a b) := by
  obtain ⟨k, hk⟩ : ∃ k : Nat, k = (a.exponent - b.exponent - quotientExponent a b).toNat := ⟨_, rfl⟩
  rw [← hk]
  have hself := Nat.log2_self_le hpos.ne'
  have hlt : b.significand < 2 ^ (b.significand.log2 + 1) := Nat.lt_log2_self
  refine target_of_full (or_iff_not_imp_right.2 fun hlow => ?_)
  have hbits : 52 + (b.significand.log2 + 1) ≤ a.significand.log2 + k := by
    simp only [quotientExponent] at hk hlow
    omega
  rw [Nat.le_div_iff_mul_le hpos', Nat.shiftLeft_eq]
  calc 2 ^ 52 * b.significand ≤ 2 ^ 52 * 2 ^ (b.significand.log2 + 1) := by gcongr
    _ = 2 ^ (52 + (b.significand.log2 + 1)) := (pow_add ..).symm
    _ ≤ 2 ^ (a.significand.log2 + k) := Nat.pow_le_pow_right (by norm_num) hbits
    _ = 2 ^ a.significand.log2 * 2 ^ k := pow_add ..
    _ ≤ a.significand * 2 ^ k := by gcongr

theorem div_rounds (s t : Sign) (ha : 0 < a.significand) (hb : 0 < b.significand) :
    Rounds (s / t) (a.value / b.value)
      (UnpackedFloat.div Format.binary64 (.finite s a.significand a.exponent ha)
        (.finite t b.significand b.exponent hb)) := by
  obtain ⟨k, hk⟩ : ∃ k : Nat, k = (a.exponent - b.exponent - quotientExponent a b).toNat := ⟨_, rfl⟩
  have hle := quotientExponent_le ha hb
  have hexponent : a.exponent - b.exponent = quotientExponent a b + k := by
    simp only [quotientExponent] at hk ⊢
    omega
  have hvalue : a.value / b.value / (2 : ℚ) ^ quotientExponent a b =
      (a.significand <<< k : Nat) / b.significand := by
    have : (2 : ℚ) ^ a.exponent = 2 ^ b.exponent * 2 ^ quotientExponent a b * 2 ^ k := by
      rw [← zpow_add₀ (by norm_num), ← zpow_natCast, ← zpow_add₀ (by norm_num)]
      congr 1
      omega
    have hne : (b.significand : ℚ) ≠ 0 := by exact_mod_cast hb.ne'
    rw [Binary.value, Binary.value, this, Nat.shiftLeft_eq]
    push_cast
    field_simp
  rw [← hk] at hle
  have hrounds := roundWithAccuracy_rounds (s / t)
    (hvalue ▸ describes_div (a.significand <<< k) hb) hle
  rw [hk] at hrounds
  exact hrounds

theorem div_nearest (hx : Is x s a) (hy : Is y t b) (hlt : a.value / b.value < overflow) :
    Nearest (x / y) (s / t) (a.value / b.value) := by
  refine (div_rounds s t hx.isStandard.pos hy.isStandard.pos).nearest hlt ?_
  show Float.Model.pack (UnpackedFloat.div _ x.toModel.unpack y.toModel.unpack) = _
  rw [hx.unpack_eq, hy.unpack_eq]

theorem isZero_of_pack (hx : x.toModel = Float.Model.pack (.zero s)) : IsZero x s := by
  rw [IsZero, hx]
  exact unpack_pack_zero s

theorem zero_mul_isZero (hx : IsZero x s) (hy : Is y t b) : IsZero (x * y) (s * t) := by
  refine isZero_of_pack ?_
  show Float.Model.pack (UnpackedFloat.mul _ x.toModel.unpack y.toModel.unpack) = _
  rw [show x.toModel.unpack = .zero s from hx, hy.unpack_eq]
  rfl

theorem zero_div_isZero (hx : IsZero x s) (hy : Is y t b) : IsZero (x / y) (s / t) := by
  refine isZero_of_pack ?_
  show Float.Model.pack (UnpackedFloat.div _ x.toModel.unpack y.toModel.unpack) = _
  rw [show x.toModel.unpack = .zero s from hx, hy.unpack_eq]
  rfl

/-! ### Naturals and powers of ten -/

/-- The first digits of what is too large. The exponent is a variable, so that no tactic takes the
power. -/
theorem overflow_digits {i : Nat} (hi : i = 292) :
    17976931348623158 * 10 ^ i ≤ overflow ∧ overflow < 17976931348623159 * 10 ^ i := by
  rw [hi]
  decide +kernel

theorem tenPow_lt_overflow {k : Nat} (hk : k ≤ 308) : 10 ^ k < overflow := by
  obtain ⟨i, hi⟩ : ∃ i, i = 292 := ⟨_, rfl⟩
  have hle : 10 ^ k ≤ 10 ^ 16 * 10 ^ i := by
    rw [← Nat.pow_add]
    exact Nat.pow_le_pow_right (by norm_num) (by omega)
  have := Nat.one_le_pow k 10 (by norm_num)
  have := (overflow_digits hi).1
  omega

theorem lt_overflow {n : Nat} (hn : n < 2 ^ 64) : n < overflow :=
  lt_trans (by omega : n < 10 ^ 20) (tenPow_lt_overflow (by norm_num))

/-- A small natural number is moved up to where it has all its bits, and nothing is lost. -/
theorem toFloat_nearest {n : UInt64} (hpos : 0 < n.toNat) (hn : n.toNat < 2 ^ 53) :
    Nearest n.toFloat .positive n.toNat := by
  obtain ⟨m, hm⟩ : ∃ m, n.toNat = m := ⟨_, rfl⟩
  rw [hm] at hpos hn ⊢
  have hself := Nat.log2_self_le hpos.ne'
  have hlog := log2_le hn
  obtain ⟨k, hk⟩ : ∃ k : Nat, k = (0 - target m 0).toNat := ⟨_, rfl⟩
  have hbits : k = 52 - m.log2 := by
    simp only [hk, target]
    omega
  have hvalue : (m : ℚ) = (m <<< k : Nat) * (2 : ℚ) ^ (0 - (k : Int)) := by
    rw [Nat.shiftLeft_eq, zpow_sub₀ (by norm_num), zpow_natCast]
    push_cast
    field_simp
  have hfull : 2 ^ 52 ≤ m <<< k := by
    rw [Nat.shiftLeft_eq]
    calc 2 ^ 52 = 2 ^ (m.log2 + k) := by congr 1; omega
      _ = 2 ^ m.log2 * 2 ^ k := pow_add ..
      _ ≤ m * 2 ^ k := by gcongr
  refine Rounds.nearest (hvalue ▸ round_exact .positive (target_of_full (.inl hfull)))
    (Nat.cast_lt.2 (lt_overflow (by omega))) ?_
  show Float.Model.pack (UnpackedFloat.normalize _ (n.toNat : Int) 0 .positive) = _
  rw [hm, UnpackedFloat.normalize, Int.compare_eq_gt.2 (by exact_mod_cast hpos), hk]
  rfl

theorem powersOfTen_exact : ∀ (k : Nat) (hk : k < 23),
    let x := Float.exactlyRepresentablePowersOfTen[k]
    let b := Binary.ofBits x.toBits
    x.isFinite ∧ isNegative x = false ∧ 2 ^ 52 ≤ b.significand ∧
      b.significand * 2 ^ up b.exponent = 10 ^ k * 2 ^ down b.exponent := by
  decide +kernel

theorem powersOfTen_is {k : Nat} (hk : k < 23) :
    ∃ b, Is Float.exactlyRepresentablePowersOfTen[k] .positive b ∧ 2 ^ 52 ≤ b.significand ∧
      b.value = (10 ^ k : Nat) := by
  obtain ⟨hfinite, hsign, hfull, hvalue⟩ := powersOfTen_exact k hk
  rcases isZero_or_is hfinite with ⟨s, hzero⟩ | ⟨s, h⟩
  · have := hzero.ofBits
    omega
  · have hs : s = .positive := by
      rw [h.isNegative] at hsign
      cases s
      · cases hsign
      · rfl
    refine ⟨_, hs ▸ h, hfull, ?_⟩
    rw [Binary.value, zpow_eq 2 (by norm_num), ← mul_div_assoc, div_eq_iff (by positivity)]
    exact_mod_cast hvalue

theorem scientific_rounds {m : Nat} (hpos : 0 < m) {e : Int} (he : e ≤ 2 ^ 11) :
    Rounds .positive (m * (10 : ℚ) ^ e) (UnpackedFloat.ofScientific Format.binary64 m e) := by
  rw [UnpackedFloat.ofScientific, dif_neg hpos.ne', if_neg (by exact not_lt_of_ge he)]
  split
  · -- so low that it is far below half of the least number
    rename_i hlow
    replace hlow : e < -(2 ^ 11 + m.log2 : Int) := hlow
    refine .zero ?_
    have hm : (m : ℚ) ≤ (2 : ℚ) ^ ((m.log2 + 1 : Nat) : Int) := by
      rw [zpow_natCast]
      exact_mod_cast Nat.lt_log2_self.le
    have hten : (10 : ℚ) ^ e ≤ 2 ^ e := by
      obtain ⟨j, rfl⟩ : ∃ j : Nat, e = -j := ⟨(-e).toNat, by omega⟩
      rw [zpow_neg, zpow_neg, zpow_natCast, zpow_natCast]
      exact inv_anti₀ (by positivity) (pow_le_pow_left₀ (by norm_num) (by norm_num) j)
    calc (m : ℚ) * 10 ^ e ≤ (2 : ℚ) ^ ((m.log2 + 1 : Nat) : Int) * 2 ^ e :=
          mul_le_mul hm hten (by positivity) (by positivity)
      _ = (2 : ℚ) ^ ((m.log2 + 1 : Nat) + e : Int) := (zpow_add₀ (by norm_num) _ _).symm
      _ ≤ (2 : ℚ) ^ (-1075 : Int) := zpow_le_zpow_right₀ (by norm_num) (by push_cast; omega)
  · split
    · -- the significand is moved up by as many bits as a number has
      rename_i hge
      obtain ⟨k, rfl⟩ := Int.eq_ofNat_of_zero_le hge
      have hvalue : (m : ℚ) * (10 : ℚ) ^ (k : Int) =
          (⟨m <<< 53, -53, false⟩ : Binary).value * (⟨10 ^ k, 0, false⟩ : Binary).value := by
        simp only [Binary.value]
        rw [zpow_natCast, Nat.shiftLeft_eq, zpow_neg, zpow_zero]
        push_cast
        field_simp
      have hfull : 2 ^ 52 ≤ m <<< 53 * 10 ^ k := by
        rw [Nat.shiftLeft_eq]
        exact le_trans (by norm_num : 2 ^ 52 ≤ 1 * 2 ^ 53 * 1)
          (Nat.mul_le_mul (Nat.mul_le_mul_right _ hpos) (Nat.one_le_pow k 10 (by norm_num)))
      rw [hvalue]
      exact mul_rounds .positive .positive _ _ hfull
    · obtain ⟨k, rfl⟩ : ∃ k : Nat, e = -k := ⟨(-e).toNat, by omega⟩
      have hvalue : (m : ℚ) * (10 : ℚ) ^ (-k : Int) =
          (⟨m, 0, false⟩ : Binary).value /
            (⟨10 ^ (- -(k : Int)).toNat, 0, false⟩ : Binary).value := by
        simp only [Binary.value, neg_neg, Int.toNat_natCast]
        rw [zpow_neg, zpow_natCast, zpow_zero]
        push_cast
        field_simp
      rw [hvalue]
      exact div_rounds .positive .positive _ _

theorem toUInt64_nearest {m : Nat} (hpos : 0 < m) (hm : m < 2 ^ 53) :
    ∃ a, Is m.toUInt64.toFloat .positive a ∧ a.value = m := by
  obtain ⟨a, ha, hvalue⟩ := exists_standard hpos hm (by norm_num : (-1074 : Int) ≤ 0)
  have hself : m.toUInt64.toNat = m := by
    rw [Nat.toUInt64_eq, UInt64.toNat_ofNat']
    omega
  rw [zpow_zero, mul_one] at hvalue
  have hx := toFloat_nearest (hself.symm ▸ hpos) (hself.symm ▸ hm)
  rw [hself, ← hvalue] at hx
  exact ⟨a, hx.value_eq ha, hvalue⟩

theorem ofScientific_nearest {m k : Nat} (hpos : 0 < m) (hk : k ≤ 308)
    (hlt : m * 10 ^ k < overflow) :
    Nearest (Float.ofScientific m false k) .positive (m * 10 ^ k : Nat) := by
  rw [Float.ofScientific]
  split
  · rename_i hsmall
    obtain ⟨b, hb, hfull, hvalue⟩ := powersOfTen_is (Nat.lt_succ_of_le hsmall.2)
    obtain ⟨a, ha, hvalue'⟩ := toUInt64_nearest hpos hsmall.1
    have hprod : ((m * 10 ^ k : Nat) : ℚ) = a.value * b.value := by
      rw [hvalue, hvalue']
      push_cast
      rfl
    rw [hprod]
    exact mul_nearest ha hb hfull (hprod ▸ Nat.cast_lt.2 hlt)
  · have hround := scientific_rounds hpos (show (k : Int) ≤ 2 ^ 11 by omega)
    rw [zpow_natCast] at hround
    have hprod : ((m * 10 ^ k : Nat) : ℚ) = m * 10 ^ k := by push_cast; rfl
    exact hprod ▸ hround.nearest (hprod ▸ Nat.cast_lt.2 hlt) rfl

theorem ofNat_nearest {n : Nat} (hpos : 0 < n) (hn : n < 2 ^ 64) :
    Nearest (Float.ofNat n) .positive n := by
  have hone : n * 10 ^ 0 = n := by rw [pow_zero, mul_one]
  have h := ofScientific_nearest hpos (Nat.zero_le 308) (hone.symm ▸ lt_overflow hn)
  rwa [hone] at h

theorem tenTo_nearest {k : Nat} (hk : k ≤ 308) :
    Nearest (Json.tenTo k) .positive (10 ^ k : Nat) := by
  have hone : 1 * 10 ^ k = 10 ^ k := one_mul _
  have h := ofScientific_nearest one_pos hk (hone.symm ▸ tenPow_lt_overflow hk)
  rwa [hone] at h

end StatAlmanac.Binary64
