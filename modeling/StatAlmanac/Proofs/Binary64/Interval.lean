import Mathlib.Data.Rat.Cast.Order
import Mathlib.Tactic.FieldSimp
import Mathlib.Tactic.Linarith
import Mathlib.Tactic.NormNum
import Mathlib.Tactic.Positivity
import Mathlib.Tactic.Ring
import StatAlmanac.Decimal.Shortest

/-!
The rationals that round to a binary64 number, to the nearest with ties to even.
They lie between two ends, which belong to them when the significand is even, and
no rational rounds to two numbers.
-/

namespace StatAlmanac.Decimal

/-! ### Values -/

def value (d : Decimal) : ℚ := d.digits * (10 : ℚ) ^ d.exponent

theorem value_nonneg (d : Decimal) : 0 ≤ d.value :=
  mul_nonneg (Nat.cast_nonneg _) (zpow_pos (by norm_num) _).le

theorem zpow_eq (b : ℚ) (hb : b ≠ 0) (i : Int) : b ^ i = b ^ up i / b ^ down i := by
  rw [eq_div_iff (pow_ne_zero _ hb), ← zpow_natCast, ← zpow_natCast, ← zpow_add₀ hb]
  congr 1
  simp only [up, down]
  omega

/-- The two sides that are compared, after the common denominators have been removed. -/
theorem compareTo_sides (d : Decimal) (n : Nat) (j : Int) :
    ∃ k : ℚ, 0 < k ∧
      ((d.digits * pow10 (up d.exponent) * pow2 (down j) : Nat) : ℚ) = d.value * k ∧
      ((n * pow2 (up j) * pow10 (down d.exponent) : Nat) : ℚ) = n * (2 : ℚ) ^ j * k := by
  refine ⟨2 ^ down j * 10 ^ down d.exponent, by positivity, ?_, ?_⟩
  · rw [value, zpow_eq 10 (by norm_num) d.exponent]
    push_cast [pow10, pow2, Nat.pow_eq]
    field_simp
  · rw [zpow_eq 2 (by norm_num) j]
    push_cast [pow10, pow2, Nat.pow_eq]
    field_simp

theorem compareTo_lt_iff {d : Decimal} {n : Nat} {j : Int} :
    d.compareTo n j = .lt ↔ d.value < n * (2 : ℚ) ^ j := by
  obtain ⟨k, hk, hleft, hright⟩ := compareTo_sides d n j
  rw [compareTo, Nat.compare_eq_lt, ← Nat.cast_lt (α := ℚ), hleft, hright, mul_lt_mul_iff_left₀ hk]

theorem compareTo_eq_iff {d : Decimal} {n : Nat} {j : Int} :
    d.compareTo n j = .eq ↔ d.value = n * (2 : ℚ) ^ j := by
  obtain ⟨k, hk, hleft, hright⟩ := compareTo_sides d n j
  rw [compareTo, Nat.compare_eq_eq, ← Nat.cast_inj (R := ℚ), hleft, hright, mul_left_inj' hk.ne']

theorem compareTo_gt_iff {d : Decimal} {n : Nat} {j : Int} :
    d.compareTo n j = .gt ↔ (n : ℚ) * (2 : ℚ) ^ j < d.value := by
  obtain ⟨k, hk, hleft, hright⟩ := compareTo_sides d n j
  rw [compareTo, Nat.compare_eq_gt, ← Nat.cast_lt (α := ℚ), hleft, hright, mul_lt_mul_iff_left₀ hk]

namespace Binary

def value (x : Binary) : ℚ := x.significand * (2 : ℚ) ^ x.exponent

/-- The number in its one standard form: as many bits as there are,
and no exponent below the least. -/
structure IsStandard (x : Binary) : Prop where
  pos : 0 < x.significand
  lt : x.significand < 2 ^ 53
  least : -1074 ≤ x.exponent
  full : 2 ^ 52 ≤ x.significand ∨ x.exponent = -1074
  narrow_iff : x.narrow ↔ x.significand = 2 ^ 52 ∧ x.exponent ≠ -1074

def standard (significand : Nat) (exponent : Int) : Binary :=
  ⟨significand, exponent, significand = 2 ^ 52 ∧ exponent ≠ -1074⟩

theorem isStandard_standard {m : Nat} {e : Int} (hpos : 0 < m) (hlt : m < 2 ^ 53) (he : -1074 ≤ e)
    (hfull : 2 ^ 52 ≤ m ∨ e = -1074) : (standard m e).IsStandard :=
  ⟨hpos, hlt, he, hfull, by simp [standard]⟩

theorem IsStandard.eq_standard {x : Binary} (h : x.IsStandard) :
    x = standard x.significand x.exponent := by
  have hnarrow : x.narrow = decide (x.significand = 2 ^ 52 ∧ x.exponent ≠ -1074) := by
    rw [Bool.eq_iff_iff, h.narrow_iff, decide_eq_true_iff]
  cases x
  simpa [standard] using hnarrow

theorem IsStandard.le_significand {x : Binary} (h : x.IsStandard) (he : -1074 < x.exponent) :
    (2 ^ 52 : ℚ) ≤ x.significand := by
  exact_mod_cast h.full.resolve_right he.ne'

/-- Only at the least significand with all bits do the numbers below lie closer. -/
theorem IsStandard.lt_significand {x : Binary} (h : x.IsStandard) (he : -1074 < x.exponent)
    (hn : ¬x.narrow) : (2 ^ 52 + 1 : ℚ) ≤ x.significand := by
  have hfull := h.full.resolve_right he.ne'
  have hne : x.significand ≠ 2 ^ 52 := fun heq => hn (h.narrow_iff.2 ⟨heq, he.ne'⟩)
  exact_mod_cast (by omega : 2 ^ 52 + 1 ≤ x.significand)

def low (x : Binary) : ℚ :=
  (4 * x.significand - if x.narrow then 1 else 2) * (2 : ℚ) ^ (x.exponent - 2)

def high (x : Binary) : ℚ := (4 * x.significand + 2) * (2 : ℚ) ^ (x.exponent - 2)

/-- `q` rounds to `x`. -/
structure Takes (x : Binary) (q : ℚ) : Prop where
  low_le : x.low ≤ q
  le_high : q ≤ x.high
  off_ends : x.significand % 2 = 1 → q ≠ x.low ∧ q ≠ x.high

theorem takes_of_inside {x : Binary} {q : ℚ} (hlow : x.low < q) (hhigh : q < x.high) : x.Takes q :=
  ⟨hlow.le, hhigh.le, fun _ => ⟨hlow.ne', hhigh.ne⟩⟩

/-- To cover a decimal is to take its value. -/
theorem covers_iff {x : Binary} (hpos : 0 < x.significand) {d : Decimal} :
    x.covers d ↔ x.Takes d.value := by
  have hlow : x.low = ((4 * x.significand - if x.narrow then 1 else 2 : Nat) : ℚ) *
      (2 : ℚ) ^ (x.exponent - 2) := by
    rw [low, Nat.cast_sub (by split <;> omega)]
    split <;> push_cast <;> ring
  have hhigh : x.high = ((4 * x.significand + 2 : Nat) : ℚ) * (2 : ℚ) ^ (x.exponent - 2) := by
    rw [high]
    push_cast
    ring
  simp only [covers, Bool.and_eq_true, Bool.or_eq_true, beq_iff_eq, compareTo_gt_iff,
    compareTo_eq_iff, compareTo_lt_iff, ← hlow, ← hhigh]
  constructor
  · rintro ⟨hl, hh⟩
    refine ⟨hl.elim le_of_lt fun h => h.2.ge, hh.elim le_of_lt fun h => h.2.le, fun hodd => ?_⟩
    have heven : ¬x.significand % 2 = 0 := by omega
    simp only [heven, false_and, or_false] at hl hh
    exact ⟨hl.ne', hh.ne⟩
  · rintro ⟨hl, hh, hends⟩
    rcases Nat.mod_two_eq_zero_or_one x.significand with heven | hodd
    · simp only [heven, true_and]
      exact ⟨hl.lt_or_eq.imp_right Eq.symm, hh.lt_or_eq⟩
    · obtain ⟨hne, hne'⟩ := hends hodd
      exact ⟨.inl (lt_of_le_of_ne hl hne.symm), .inl (lt_of_le_of_ne hh hne')⟩

/-! ### No rational rounds to two numbers -/

variable {x y : Binary} {q : ℚ}

theorem two_zpow_pos (i : Int) : (0 : ℚ) < (2 : ℚ) ^ i := zpow_pos (by norm_num) i

theorem IsStandard.le_low (h : x.IsStandard) (he : -1074 < x.exponent) :
    (2 ^ 54 - 1) * (2 : ℚ) ^ (x.exponent - 2) ≤ x.low := by
  rw [low]
  refine mul_le_mul_of_nonneg_right ?_ (two_zpow_pos _).le
  by_cases hn : x.narrow
  · rw [if_pos hn]
    linarith [h.le_significand he]
  · rw [if_neg hn]
    linarith [h.lt_significand he hn]

theorem IsStandard.high_le (h : x.IsStandard) :
    x.high ≤ (2 ^ 55 - 2) * (2 : ℚ) ^ (x.exponent - 2) := by
  have hlt : (x.significand : ℚ) + 1 ≤ 2 ^ 53 := by exact_mod_cast h.lt
  rw [high]
  exact mul_le_mul_of_nonneg_right (by linarith) (two_zpow_pos _).le

/-- In one binade the ends meet at most halfway, where just one of two neighbours is even. -/
theorem separate_of_exponent_eq (hy : y.IsStandard) (hx : x.IsStandard)
    (he : x.exponent = y.exponent) (hlt : x.significand < y.significand) (hxq : x.Takes q) :
    ¬y.Takes q := by
  intro hyq
  have hnarrow : y.narrow = false := by
    by_contra h
    have hn := hy.narrow_iff.1 (by simpa using h)
    rcases hx.full with hfull | hleast
    · omega
    · exact hn.2 (he ▸ hleast)
  have hunit := two_zpow_pos (y.exponent - 2)
  have hstep : (x.significand : ℚ) + 1 ≤ y.significand := by exact_mod_cast hlt
  have hhigh := hxq.le_high
  have hlow := hyq.low_le
  rw [high, he] at hhigh
  simp only [low, hnarrow, Bool.false_eq_true, if_false] at hlow
  -- the two ends can only meet
  have hmeet : (y.significand : ℚ) = x.significand + 1 := by nlinarith
  have hparity : y.significand = x.significand + 1 := by exact_mod_cast hmeet
  have hend : q = x.high := by
    rw [high, he]
    refine le_antisymm hhigh (le_trans (le_of_eq ?_) hlow)
    rw [hmeet]
    ring
  rcases Nat.mod_two_eq_zero_or_one x.significand with heven | hodd
  · refine (hyq.off_ends (by omega)).1 ?_
    simp only [hend, high, low, hnarrow, Bool.false_eq_true, if_false, hmeet, he]
    ring
  · exact (hxq.off_ends hodd).2 hend

/-- Numbers of a higher binade lie above all that rounds to those below it. -/
theorem separate_of_exponent_lt (hy : y.IsStandard) (hx : x.IsStandard)
    (he : x.exponent < y.exponent) (hxq : x.Takes q) : ¬y.Takes q := by
  intro hyq
  obtain ⟨j, hj⟩ : ∃ j : Nat, y.exponent - 2 = (x.exponent - 2) + (j + 1 : Nat) :=
    ⟨(y.exponent - x.exponent - 1).toNat, by omega⟩
  have hunit := two_zpow_pos (x.exponent - 2)
  have hpow : (2 : ℚ) ^ (y.exponent - 2) = 2 * 2 ^ j * (2 : ℚ) ^ (x.exponent - 2) := by
    rw [hj, zpow_add₀ (by norm_num), zpow_natCast, pow_succ]
    ring
  have hone : (1 : ℚ) ≤ 2 ^ j := one_le_pow₀ (by norm_num)
  have habove : (2 ^ 55 - 2) * (2 : ℚ) ^ (x.exponent - 2) ≤ y.low := by
    refine le_trans ?_ (hy.le_low (lt_of_le_of_lt hx.least he))
    rw [hpow]
    calc (2 ^ 55 - 2 : ℚ) * 2 ^ (x.exponent - 2)
        = (2 ^ 54 - 1) * (2 * 1 * 2 ^ (x.exponent - 2)) := by ring
      _ ≤ _ := by gcongr
  have hend : q = x.high := le_antisymm hxq.le_high (by linarith [hyq.low_le, hx.high_le])
  have hmax : x.high = (2 ^ 55 - 2) * (2 : ℚ) ^ (x.exponent - 2) :=
    le_antisymm hx.high_le (by linarith [hyq.low_le])
  -- they meet only behind the largest significand, which is odd
  have hlast : x.significand = 2 ^ 53 - 1 := by
    rw [high, mul_left_inj' hunit.ne'] at hmax
    have : (x.significand : ℚ) + 1 = 2 ^ 53 := by linarith
    have : x.significand + 1 = 2 ^ 53 := by exact_mod_cast this
    omega
  exact (hxq.off_ends (by omega)).2 hend

theorem eq_of_takes (hx : x.IsStandard) (hy : y.IsStandard) (hxq : x.Takes q) (hyq : y.Takes q) :
    x = y := by
  rcases lt_trichotomy x.exponent y.exponent with hlt | he | hgt
  · exact absurd hyq (separate_of_exponent_lt hy hx hlt hxq)
  · rcases lt_trichotomy x.significand y.significand with hlt | hs | hgt
    · exact absurd hyq (separate_of_exponent_eq hy hx he hlt hxq)
    · have hnarrow : x.narrow = y.narrow := by
        rw [Bool.eq_iff_iff, hx.narrow_iff, hy.narrow_iff, hs, he]
      cases x
      cases y
      simp_all
    · exact absurd hxq (separate_of_exponent_eq hx hy he.symm hgt hyq)
  · exact absurd hxq (separate_of_exponent_lt hx hy hgt hyq)

end Binary

end StatAlmanac.Decimal
