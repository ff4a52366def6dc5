import StatAlmanac.Proofs.Binary64.Error

/-!
The arithmetic that reads numbers: a significand times or over a power of ten, each of
them rounded before.
-/

namespace StatAlmanac.Json

open Decimal Binary64

variable {n : Nat} {k : Int}

/-! ### The parts -/

theorem tiny_le_one : (2 : ℚ) ^ (-1021 : Int) ≤ 1 :=
  zpow_le_one_of_nonpos₀ (by norm_num) (by norm_num)

theorem ofNat_normal (hpos : 0 < n) (hn : n < 2 ^ 64) :
    ∃ a, Is (Float.ofNat n) .positive a ∧ a.Takes n ∧ 2 ^ 52 ≤ a.significand ∧
      |a.value - n| ≤ roundoff * n :=
  (ofNat_nearest hpos hn).normal (tiny_le_one.trans (by exact_mod_cast hpos))

theorem one_le_tenPow (j : Nat) : (1 : ℚ) ≤ (10 ^ j : Nat) := by
  exact_mod_cast Nat.one_le_pow j 10 (by norm_num)

theorem tenPow_cast (j : Nat) : ((10 ^ j : Nat) : ℚ) = (10 : ℚ) ^ j := by
  push_cast
  rfl

theorem tenTo_normal {j : Nat} (hj : j ≤ 308) :
    ∃ b, Is (tenTo j) .positive b ∧ b.Takes (10 ^ j : Nat) ∧ 2 ^ 52 ≤ b.significand ∧
      |b.value - (10 ^ j : Nat)| ≤ roundoff * (10 ^ j : Nat) :=
  (tenTo_nearest hj).normal (tiny_le_one.trans (one_le_tenPow j))

theorem le_of_close {A : ℚ} (hn : n < 2 ^ 64) (hA : |A - n| ≤ roundoff * n) : A ≤ 2 ^ 66 := by
  have hn' : (n : ℚ) < 2 ^ 64 := by exact_mod_cast hn
  have := (abs_le.1 hA).2
  rw [roundoff] at this
  linarith

theorem isInf_of_isFinite {x : Float} (h : x.isFinite = true) : x.isInf = false := by
  replace h : x.toModel.unpack.isFinite = true := h
  show x.toModel.unpack.isInf = false
  cases hu : x.toModel.unpack with
  | infinity s =>
      rw [hu] at h
      cases h
  | notANumber => rfl
  | zero s => rfl
  | finite s m e hpos => rfl

/-- The reader makes `y` of a significand and a power of ten. It is what `q` rounds to, the exact
result of the last operation, and that is close to the value. -/
structure Computes (n : Nat) (k : Int) (y : Float) (q : ℚ) : Prop where
  eq : scaled? n k = some y
  nearest : Nearest y .positive q
  nonneg : 0 ≤ q
  close : |q - n * (10 : ℚ) ^ k| ≤ 11 / 2 * roundoff * (n * (10 : ℚ) ^ k) + 3 / 2 * underflow

theorem computes_of_close {y : Float} {q : ℚ} (heq : scaled? n k = some y)
    (hnear : Nearest y .positive q)
    (hq : 0 ≤ q) (h : |q - n * (10 : ℚ) ^ k| ≤ 5 / 2 * roundoff * (n * (10 : ℚ) ^ k)) :
    Computes n k y q := by
  refine ⟨heq, hnear, hq, h.trans ?_⟩
  have hvalue : 0 ≤ roundoff * (n * (10 : ℚ) ^ k) :=
    mul_nonneg roundoff_pos.le (mul_nonneg (Nat.cast_nonneg n) (zpow_pos (by norm_num) k).le)
  have := underflow_pos
  linarith

/-! ### Powers that are not negative -/

theorem scaled?_of_nonneg {j : Nat} (hj : j ≤ 308) :
    scaled? n j =
      if (Float.ofNat n * tenTo j).isInf then none else some (Float.ofNat n * tenTo j) := by
  rw [scaled?, if_pos (by omega), if_pos (by show (j : Int) ≤ 308; omega), Int.toNat_natCast]

theorem scaled?_mul {j : Nat} (hpos : 0 < n) (hn : n < 2 ^ 64) (hj : j ≤ 308)
    (hlt : ∀ a b, Is (Float.ofNat n) .positive a → Is (tenTo j) .positive b →
      a.value * b.value < overflow) :
    ∃ y q, Computes n j y q := by
  obtain ⟨a, ha, -, -, hA⟩ := ofNat_normal hpos hn
  obtain ⟨b, hb, -, hfull, hB⟩ := tenTo_normal hj
  have hnear := mul_nearest ha hb hfull (hlt a b ha hb)
  refine ⟨_, _, computes_of_close ?_ hnear (mul_nonneg ha.value_nonneg hb.value_nonneg) ?_⟩
  · rw [scaled?_of_nonneg hj, isInf_of_isFinite hnear.isFinite]
    rfl
  · rw [zpow_natCast]
    push_cast at hB
    exact mul_close (Nat.cast_nonneg n) (by positivity) hA hB

/-! ### Negative powers -/

theorem quotient_nearest {x y : Float} {b : Binary} {p : ℚ} (hx : Nearest x .positive p)
    (hy : Is y .positive b) (hlt : size x / b.value < overflow) :
    Nearest (x / y) .positive (size x / b.value) := by
  cases hx with
  | zero hx hp =>
      rw [hx.size_eq, zero_div]
      exact .zero (zero_div_isZero hx hy) (Binary.two_zpow_pos _).le
  | number hx hp =>
      rw [hx.size_eq] at hlt ⊢
      exact div_nearest hx hy hlt

theorem half_le_tenPow {j : Nat} {b : Binary}
    (hB : |b.value - (10 ^ j : Nat)| ≤ roundoff * (10 ^ j : Nat)) : 1 / 2 ≤ b.value := by
  have hone := one_le_tenPow j
  have := (abs_le.1 hB).1
  rw [roundoff] at this
  linarith

theorem div_lt_overflow {x B : ℚ} (hx : x ≤ 2 ^ 66) (hB : 1 / 2 ≤ B) : x / B < overflow := by
  have hlt : ((10 ^ 21 : Nat) : ℚ) < overflow := Nat.cast_lt.2 (tenPow_lt_overflow (by norm_num))
  rw [div_lt_iff₀ (by linarith)]
  push_cast at hlt
  nlinarith

theorem quotient_close {A B b : ℚ} (hb : 1 ≤ b) (hA : |A - n| ≤ roundoff * n)
    (hB : |B - b| ≤ roundoff * b) : |A / B - n / b| ≤ 5 / 2 * roundoff * (n / b) := by
  have h := div_close (r := 1) (δ := 0) (by norm_num) (by norm_num) le_rfl (Nat.cast_nonneg n) hb
    (by simpa using hA) hB
  norm_num at h ⊢
  exact h

theorem scaled?_of_neg {j : Nat} (hj : 0 < j) (hj' : j ≤ 308) :
    scaled? n (-j) = some (Float.ofNat n / tenTo j) := by
  rw [scaled?, if_neg (by omega), if_pos (by show -(308 : Int) ≤ -j; omega), neg_neg,
    Int.toNat_natCast]

theorem scaled?_div {j : Nat} (hpos : 0 < n) (hn : n < 2 ^ 64) (hj : 0 < j) (hj' : j ≤ 308) :
    ∃ y q, Computes n (-j) y q := by
  obtain ⟨a, ha, -, -, hA⟩ := ofNat_normal hpos hn
  obtain ⟨b, hb, -, -, hB⟩ := tenTo_normal hj'
  have hnear := div_nearest ha hb (div_lt_overflow (le_of_close hn hA) (half_le_tenPow hB))
  have hnonneg := div_nonneg ha.value_nonneg hb.value_nonneg
  refine ⟨_, _, computes_of_close (scaled?_of_neg hj hj') hnear hnonneg ?_⟩
  rw [zpow_neg, zpow_natCast, ← div_eq_mul_inv, ← tenPow_cast]
  exact quotient_close (one_le_tenPow j) hA hB

/-- The first of two quotients, which may be tiny. -/
theorem first_quotient {m : Nat} {t : ℚ} (hpos : 0 < n) (hn : n < 2 ^ 64) (hm : m ≤ 308)
    (ht : t = n / (10 ^ m : Nat)) :
    ∃ q, Nearest (Float.ofNat n / tenTo m) .positive q ∧
      |size (Float.ofNat n / tenTo m) - t| ≤ 4 * roundoff * t + underflow := by
  obtain ⟨a, ha, -, -, hA⟩ := ofNat_normal hpos hn
  obtain ⟨b, hb, -, -, hB⟩ := tenTo_normal hm
  have ht0 : 0 ≤ t := ht ▸ div_nonneg (Nat.cast_nonneg n) (Nat.cast_nonneg _)
  have hnear := div_nearest ha hb (div_lt_overflow (le_of_close hn hA) (half_le_tenPow hB))
  have hclose := quotient_close (one_le_tenPow m) hA hB
  rw [← ht] at hclose
  obtain ⟨h1, h2⟩ := abs_le.1 hclose
  obtain ⟨h3, h4⟩ := abs_le.1 (hnear.abs_sub_le (div_nonneg ha.value_nonneg hb.value_nonneg))
  refine ⟨_, hnear, abs_le.2 ?_⟩
  rw [roundoff] at *
  constructor <;> linarith

theorem scaled?_div_twice {j : Nat} (hpos : 0 < n) (hn : n < 2 ^ 64) (hj : 0 < j) (hj' : j ≤ 308) :
    ∃ y q, Computes n (-(308 + j : Nat)) y q := by
  -- the power stays a variable, so that no tactic takes its value
  obtain ⟨m, hm⟩ : ∃ m, m = 308 := ⟨_, rfl⟩
  obtain ⟨t, ht⟩ : ∃ t : ℚ, t = n / (10 ^ m : Nat) := ⟨_, rfl⟩
  obtain ⟨p, hfirst, hclose⟩ := first_quotient hpos hn hm.le ht
  obtain ⟨c, hc, -, -, hC⟩ := tenTo_normal hj'
  have ht0 : 0 ≤ t := ht ▸ div_nonneg (Nat.cast_nonneg n) (Nat.cast_nonneg _)
  have hsmall : size (Float.ofNat n / tenTo m) ≤ 2 ^ 66 := by
    have htn : t ≤ n := ht ▸ div_le_self (Nat.cast_nonneg n) (one_le_tenPow m)
    have hn' : (n : ℚ) < 2 ^ 64 := by exact_mod_cast hn
    have hη : underflow ≤ 1 := zpow_le_one_of_nonpos₀ (by norm_num) (by norm_num)
    have := (abs_le.1 hclose).2
    rw [roundoff] at this
    linarith
  have hsecond := quotient_nearest hfirst hc (div_lt_overflow hsmall (half_le_tenPow hC))
  refine ⟨_, _, ?_, hsecond, div_nonneg (size_nonneg _) hc.value_nonneg, ?_⟩
  · rw [scaled?, if_neg (by omega), if_neg (by show ¬-(308 : Int) ≤ _; omega),
      if_pos (by show -(2 * 308 : Int) ≤ _; omega), hm]
    congr 3
    show (-(-((308 + j : Nat) : Int)) - 308).toNat = j
    omega
  · have hvalue : (n : ℚ) * (10 : ℚ) ^ (-(308 + j : Nat) : Int) = t / (10 ^ j : Nat) := by
      rw [ht, ← hm, zpow_neg, zpow_natCast, pow_add, div_div, ← div_eq_mul_inv, tenPow_cast,
        tenPow_cast]
    rw [hvalue]
    exact (div_close (by norm_num) (by norm_num) underflow_pos.le ht0
      (one_le_tenPow j) hclose hC).trans_eq
      (by norm_num)

/-! ### No overflow

The shortest digits of a finite number are read back to a finite number. Up to the power 291 the
values are small enough, from 293 on the significand is exact. In between only the digits after
those of the largest number would go too far. -/

variable {x : Binary} {j : Nat}

def largest : Binary := .standard (2 ^ 53 - 1) 971

theorem largest_shortest : largest.shortest = ⟨17976931348623157, 292⟩ ∧
    largest.covers ⟨17976931348623158, 292⟩ = true := by decide +kernel

theorem shortest_ne (hx : x.IsStandard) : x.shortest ≠ ⟨17976931348623158, 292⟩ := by
  intro h
  have hmax : largest.IsStandard :=
    Binary.isStandard_standard (by norm_num) (by norm_num) (by norm_num) (.inl (by norm_num))
  obtain ⟨hshortest, hcovers⟩ := largest_shortest
  have ht := (Binary.shortest_takes hx).1
  rw [h] at ht
  rw [Binary.eq_of_takes hx hmax ht ((Binary.covers_iff hmax.pos).1 hcovers), hshortest] at h
  cases h

/-- A significand of at most 53 bits and zeros stays as it is. -/
theorem ofNat_exact {m i : Nat} (hn : n = m * 2 ^ i) (hpos : 0 < n) (hn' : n < 2 ^ 64)
    (hm : m < 2 ^ 53) :
    ∃ a, Is (Float.ofNat n) .positive a ∧ a.value = n := by
  have hm0 : 0 < m := Nat.pos_of_ne_zero fun h => by simp [hn, h] at hpos
  obtain ⟨a, ha, hvalue⟩ := exists_standard hm0 hm (by omega : (-1074 : Int) ≤ i)
  have hcast : a.value = n := by
    rw [hvalue, hn, zpow_natCast]
    push_cast
    rfl
  exact ⟨a, (hcast ▸ ofNat_nearest hpos hn').value_eq ha, hcast⟩

theorem ofNat_le {a : Binary} (hpos : 0 < n) (hn : n ≤ 17976931348623157)
    (ha : Is (Float.ofNat n) .positive a) : a.value ≤ (17976931348623157 : Nat) := by
  have hn' : n < 2 ^ 64 := by omega
  have hcast : (n : ℚ) ≤ (17976931348623157 : Nat) := Nat.cast_le.2 hn
  obtain ⟨i, hi⟩ := Nat.even_or_odd' n
  rcases hi with heven | hodd
  · -- half of an even one has 53 bits
    obtain ⟨c, hc, hvalue⟩ := ofNat_exact (m := i) (i := 1) (by omega) hpos hn' (by omega)
    rw [← ha.ofBits, hc.ofBits, hvalue]
    exact hcast
  · by_cases hlast : n = 17976931348623157
    · have hclosed : (Binary.ofBits (Float.ofNat 17976931348623157).toBits).value * (1 : Nat) <
          (17976931348623157 : Nat) := Binary.value_mul_lt (by decide +kernel)
      rw [hlast] at ha
      rw [ha.ofBits, Nat.cast_one, mul_one] at hclosed
      exact hclosed.le
    · obtain ⟨c, hc, -, -, hC⟩ := ofNat_normal hpos hn'
      rw [← ha.ofBits, hc.ofBits]
      have hless : (n : ℚ) ≤ 17976931348623155 := by
        exact_mod_cast (by omega : n ≤ 17976931348623155)
      have hbound := (abs_le.1 hC).2
      rw [roundoff] at hbound
      push_cast
      linarith

theorem tenTo_292 {b : Binary} (hb : Is (tenTo 292) .positive b) :
    b.value * (17976931348623157 : Nat) < overflow := by
  have hclosed : (Binary.ofBits (tenTo 292).toBits).value * (17976931348623157 : Nat) < overflow :=
    Binary.value_mul_lt (by decide +kernel)
  rwa [hb.ofBits] at hclosed

section Products

variable {a b : Binary}

theorem mul_lt_overflow_low (hn : n ≤ 10 ^ 17 + 1) (hj : j < 292) (ha : 0 ≤ a.value)
    (hb : 0 ≤ b.value)
    (hA : a.value ≤ (1 + roundoff) * n) (hB : b.value ≤ (1 + roundoff) * (10 ^ j : Nat)) :
    a.value * b.value < overflow := by
  obtain ⟨P, hP⟩ : ∃ P : Nat, P = 10 ^ j := ⟨_, rfl⟩
  obtain ⟨i, hi⟩ : ∃ i, i = 292 := ⟨_, rfl⟩
  rw [← hP] at hB
  have hpow : P * 10 ≤ 10 ^ i := by
    rw [hP, ← Nat.pow_succ]
    exact Nat.pow_le_pow_right (by norm_num) (by omega)
  have hsmall : n * P * 3 < 2 * overflow := by
    have hpos : 0 < P := hP ▸ Nat.pow_pos (by norm_num)
    have hle : n * P ≤ (10 ^ 17 + 1) * P := Nat.mul_le_mul_right P hn
    have := (overflow_digits hi).1
    omega
  have hsmall' : (n : ℚ) * P * 3 < 2 * overflow := by exact_mod_cast hsmall
  have hnP : (0 : ℚ) ≤ n * P := mul_nonneg (Nat.cast_nonneg n) (Nat.cast_nonneg P)
  have hprod : a.value * b.value ≤ (1 + roundoff) ^ 2 * (n * P) := by
    refine (mul_le_mul hA hB hb (ha.trans hA)).trans_eq ?_
    ring
  rw [roundoff] at hprod
  linarith

theorem quotients_of_overflow : ∀ j < 309, 293 ≤ j → overflow / 10 ^ j < 2 ^ 53 ∧
    overflow / 10 ^ j * 10 ^ j * (2 ^ 53 + 1) < overflow * 2 ^ 53 := by decide +kernel

theorem mul_lt_overflow_high (hj : 292 < j) (hj' : j ≤ 308) (hpos : 0 < n)
    (hle : n * 10 ^ j ≤ overflow)
    (ha : Is (Float.ofNat n) .positive a) (hB : b.value ≤ (1 + roundoff) * (10 ^ j : Nat)) :
    a.value * b.value < overflow := by
  obtain ⟨hsmall, hgap⟩ := quotients_of_overflow j (by omega) hj
  obtain ⟨P, hP⟩ : ∃ P : Nat, P = 10 ^ j := ⟨_, rfl⟩
  rw [← hP] at hsmall hgap hle hB
  have hquot : n ≤ overflow / P :=
    (Nat.le_div_iff_mul_le (hP ▸ Nat.pow_pos (by norm_num))).2 hle
  obtain ⟨c, hc, hvalue⟩ := ofNat_exact (m := n) (i := 0) (by simp) hpos (by omega) (by omega)
  obtain rfl : a = c := ha.ofBits.symm.trans hc.ofBits
  have hfit : n * P * (2 ^ 53 + 1) < overflow * 2 ^ 53 :=
    lt_of_le_of_lt (Nat.mul_le_mul_right _ (Nat.mul_le_mul_right _ hquot)) hgap
  have hfit' : (n : ℚ) * P * (2 ^ 53 + 1) < overflow * 2 ^ 53 := by exact_mod_cast hfit
  have hprod : a.value * b.value ≤ n * ((1 + roundoff) * P) :=
    hvalue ▸ mul_le_mul_of_nonneg_left hB ha.value_nonneg
  rw [roundoff] at hprod
  linarith

/-- The digits of the shortest decimal at this power are at most those of the largest number. -/
theorem digits_le_largest (hx : x.IsStandard) (hshort : x.shortest = ⟨n, 292⟩)
    (hle : n * 10 ^ 292 ≤ overflow) : n ≤ 17976931348623157 := by
  have hne : n ≠ 17976931348623158 := fun h => shortest_ne hx (by rw [hshort, h])
  obtain ⟨i, hi⟩ : ∃ i, i = 292 := ⟨_, rfl⟩
  rw [← hi] at hle
  by_contra hgt
  have hfar : 17976931348623159 * 10 ^ i ≤ n * 10 ^ i := Nat.mul_le_mul_right _ (by omega)
  have := (overflow_digits hi).2
  omega

theorem mul_lt_overflow (hx : x.IsStandard) (hshort : x.shortest = ⟨n, j⟩) (hpos : 0 < n)
    (hn : n ≤ 10 ^ 17 + 1) (hj : j ≤ 308) (hle : n * 10 ^ j ≤ overflow)
    (ha : Is (Float.ofNat n) .positive a) (hb : Is (tenTo j) .positive b) :
    a.value * b.value < overflow := by
  obtain ⟨c, hc, -, -, hC⟩ := ofNat_normal hpos (by omega)
  obtain ⟨d, hd, -, -, hD⟩ := tenTo_normal hj
  obtain rfl : a = c := ha.ofBits.symm.trans hc.ofBits
  obtain rfl : b = d := hb.ofBits.symm.trans hd.ofBits
  have hA : a.value ≤ (1 + roundoff) * n := by linarith [(abs_le.1 hC).2]
  have hB : b.value ≤ (1 + roundoff) * (10 ^ j : Nat) := by linarith [(abs_le.1 hD).2]
  rcases lt_trichotomy j 292 with hlow | hmid | hhigh
  · exact mul_lt_overflow_low hn hlow ha.value_nonneg hb.value_nonneg hA hB
  · subst hmid
    have hless := digits_le_largest hx hshort hle
    calc a.value * b.value ≤ (17976931348623157 : Nat) * b.value :=
          mul_le_mul_of_nonneg_right (ofNat_le hpos hless ha) hb.value_nonneg
      _ = b.value * (17976931348623157 : Nat) := mul_comm ..
      _ < overflow := tenTo_292 hb
  · exact mul_lt_overflow_high hhigh hj hpos hle ha hB

end Products

/-! ### All powers -/

/-- Whatever rounds to a number is not as small as twice the least power would make it. -/
theorem neg_616_le (hx : x.IsStandard) (hn : n < 2 ^ 64) (h : x.Takes (n * (10 : ℚ) ^ k)) :
    -616 ≤ k := by
  by_contra hlt
  obtain ⟨m, hm⟩ : ∃ m, m = 617 := ⟨_, rfl⟩
  obtain ⟨i, hi⟩ : ∃ i, i = 1075 := ⟨_, rfl⟩
  have hfar : 2 ^ 64 * 2 ^ i ≤ 10 ^ m := by
    rw [← Nat.pow_add]
    calc 2 ^ (64 + i) ≤ 2 ^ (3 * m) := Nat.pow_le_pow_right (by norm_num) (by omega)
      _ = 8 ^ m := Nat.pow_mul 2 3 m
      _ ≤ 10 ^ m := Nat.pow_le_pow_left (by norm_num) m
  have hfar' : (2 ^ 64 * 2 ^ i : ℚ) ≤ 10 ^ m := by exact_mod_cast hfar
  have hn' : (n : ℚ) ≤ 2 ^ 64 := by exact_mod_cast hn.le
  have hle : (10 : ℚ) ^ k ≤ (10 : ℚ) ^ (-(m : Int)) := zpow_le_zpow_right₀ (by norm_num) (by omega)
  have hpos := lt_of_takes hx h
  rw [show (-1075 : Int) = -(i : Int) by omega, zpow_neg, zpow_natCast] at hpos
  rw [zpow_neg, zpow_natCast] at hle
  have hprod : (2 ^ i : ℚ)⁻¹ < 2 ^ 64 * (10 ^ m)⁻¹ :=
    hpos.trans_le (mul_le_mul hn' hle (zpow_pos (by norm_num) k).le (by norm_num))
  rw [← div_eq_mul_inv, lt_div_iff₀ (by positivity), inv_mul_lt_iff₀ (by positivity)] at hprod
  linarith

theorem natural_le_overflow (hx : x.IsStandard) (he : x.exponent ≤ 971)
    (h : x.Takes (n * (10 : ℚ) ^ (j : Int))) : n * 10 ^ j ≤ overflow := by
  have hle := (lt_overflow_of_takes hx he h).le
  rw [zpow_natCast, ← tenPow_cast] at hle
  exact_mod_cast hle

theorem le_308 (hpos : 0 < n) {j : Nat} (h : n * 10 ^ j ≤ overflow) : j ≤ 308 := by
  by_contra hlt
  obtain ⟨i, hi⟩ : ∃ i, i = 292 := ⟨_, rfl⟩
  have hfar : 10 ^ 17 * 10 ^ i ≤ 10 ^ j := by
    rw [← Nat.pow_add]
    exact Nat.pow_le_pow_right (by norm_num) (by omega)
  have := Nat.le_mul_of_pos_left (10 ^ j) hpos
  have := (overflow_digits hi).2
  omega

theorem power_bounds (hx : x.IsStandard) (he : x.exponent ≤ 971) (hpos : 0 < n) (hn : n < 2 ^ 64)
    (h : x.Takes (n * (10 : ℚ) ^ k)) : -616 ≤ k ∧ k ≤ 308 := by
  refine ⟨neg_616_le hx hn h, ?_⟩
  by_contra hlt
  obtain ⟨j, rfl⟩ := Int.eq_ofNat_of_zero_le (by omega : 0 ≤ k)
  have := le_308 hpos (natural_le_overflow hx he h)
  omega

theorem scaled?_neg (hpos : 0 < n) (hn : n < 2 ^ 64) (hneg : k < 0) (hleast : -616 ≤ k) :
    ∃ y q, Computes n k y q := by
  by_cases hfar : k < -308
  · obtain ⟨j, hj⟩ : ∃ j : Nat, k = -((308 + j : Nat) : Int) := ⟨(-k - 308).toNat, by omega⟩
    rw [hj]
    exact scaled?_div_twice hpos hn (by omega) (by omega)
  · obtain ⟨j, hj⟩ : ∃ j : Nat, k = -(j : Int) := ⟨(-k).toNat, by omega⟩
    rw [hj]
    exact scaled?_div hpos hn (by omega) (by omega)

/-- Whatever rounds to a number is read as a number close by. Without a fraction it has to be the
shortest that does. -/
theorem scaled?_close (hx : x.IsStandard) (he : x.exponent ≤ 971) (hpos : 0 < n) (hn : n < 2 ^ 64)
    (h : x.Takes (n * (10 : ℚ) ^ k)) (hshort : 0 ≤ k → x.shortest = ⟨n, k⟩) :
    ∃ y q, Computes n k y q := by
  rcases lt_or_ge k 0 with hneg | hge
  · exact scaled?_neg hpos hn hneg (neg_616_le hx hn h)
  · obtain ⟨j, rfl⟩ := Int.eq_ofNat_of_zero_le hge
    have hle := natural_le_overflow hx he h
    have hshort' := hshort hge
    have hdigits := (Binary.shortest_takes hx).2
    rw [hshort'] at hdigits
    have hj := le_308 hpos hle
    exact scaled?_mul hpos hn hj fun a b ha hb =>
      mul_lt_overflow hx hshort' hpos hdigits hj hle ha hb

theorem tenTo_exact {j : Nat} (hj : j ≤ 22) :
    ∃ b, Is (tenTo j) .positive b ∧ b.value = (10 ^ j : Nat) ∧ 2 ^ 52 ≤ b.significand := by
  obtain ⟨b, hb, -, hfull, -⟩ := tenTo_normal (hj.trans (by norm_num) : j ≤ 308)
  have hfive : 5 ^ j < 2 ^ 53 :=
    lt_of_le_of_lt (Nat.pow_le_pow_right (by norm_num) hj) (by norm_num)
  obtain ⟨c, hc, hvalue⟩ := exists_standard (Nat.pow_pos (by norm_num) : 0 < 5 ^ j) hfive
    (by omega : (-1074 : Int) ≤ j)
  have hcast : c.value = (10 ^ j : Nat) := by
    rw [hvalue, zpow_natCast]
    push_cast
    rw [← mul_pow]
    norm_num
  have his := (hcast ▸ tenTo_nearest (hj.trans (by norm_num) : j ≤ 308)).value_eq hc
  obtain rfl : b = c := hb.ofBits.symm.trans his.ofBits
  exact ⟨b, hb, hcast, hfull⟩

/-- A significand of 53 bits with a small power of ten is read as the number that it rounds to. -/
theorem scaled?_exact (hx : x.IsStandard) (hpos : 0 < n) (hn : n < 2 ^ 53) (hk : k.natAbs ≤ 22)
    (h : x.Takes (n * (10 : ℚ) ^ k)) : ∃ y, scaled? n k = some y ∧ Is y .positive x := by
  obtain ⟨a, ha, hA⟩ := ofNat_exact (n := n) (m := n) (i := 0) (by simp) hpos (by omega) hn
  have hn' : (n : ℚ) ≤ 2 ^ 66 := by
    have : (n : ℚ) < 2 ^ 53 := by exact_mod_cast hn
    linarith
  rcases lt_or_ge k 0 with hneg | hge
  · obtain ⟨j, rfl⟩ : ∃ j : Nat, k = -(j : Int) := ⟨(-k).toNat, by omega⟩
    obtain ⟨b, hb, hB, -⟩ := tenTo_exact (j := j) (by omega)
    have hone := one_le_tenPow j
    have hnear := div_nearest ha hb (div_lt_overflow (hA ▸ hn') (by linarith))
    refine ⟨_, scaled?_of_neg (by omega) (by omega), hnear.is_of_takes hx ?_⟩
    rwa [hA, hB, tenPow_cast, div_eq_mul_inv, ← zpow_natCast, ← zpow_neg]
  · obtain ⟨j, rfl⟩ := Int.eq_ofNat_of_zero_le hge
    obtain ⟨b, hb, hB, hfull⟩ := tenTo_exact (j := j) (by omega)
    have hvalue : a.value * b.value = (n * 10 ^ j : Nat) := by
      rw [hA, hB]
      push_cast
      rfl
    have hlt : n * 10 ^ j < overflow := by
      have hpow : 10 ^ j ≤ 10 ^ 22 := Nat.pow_le_pow_right (by norm_num) (by omega)
      refine lt_of_le_of_lt (Nat.mul_le_mul (by omega : n ≤ 10 ^ 16) hpow) ?_
      rw [← Nat.pow_add]
      exact tenPow_lt_overflow (by norm_num)
    have hlt' : a.value * b.value < overflow := by
      rw [hvalue]
      exact Nat.cast_lt.2 hlt
    have hnear := mul_nearest ha hb hfull hlt'
    refine ⟨_, ?_, hnear.is_of_takes hx ?_⟩
    · rw [scaled?_of_nonneg (by omega), isInf_of_isFinite hnear.isFinite]
      rfl
    · rwa [hA, hB, tenPow_cast, ← zpow_natCast]

end StatAlmanac.Json
