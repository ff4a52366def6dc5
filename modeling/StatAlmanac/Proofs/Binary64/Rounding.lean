import Mathlib
import StatAlmanac.Proofs.Binary64.Interval

/-!
Rounding to binary64. A number is given by the leading part of its significand, by
what is known of the rest, and by an exponent. What comes of it is the number that
it rounds to.
-/

namespace StatAlmanac.Binary64

open Float.Model Float.Model.UnpackedFloat Decimal

/-! ### Residual bits -/

/-- The part of a significand that the round bit reaches to. -/
def kept (em : ExtendedMantissa) : ℚ := em.mantissa + if em.roundBit then 1 / 2 else 0

/-- The bits are those of `t`. -/
structure Describes (em : ExtendedMantissa) (t : ℚ) : Prop where
  kept_le : kept em ≤ t
  lt_kept : t < kept em + 1 / 2
  exact_iff : em.stickyBit = false ↔ t = kept em

/-- `n` is nearest to `t`, the even one of two equally near. -/
structure IsNearest (t : ℚ) (n : Nat) : Prop where
  low_le : (n : ℚ) - 1 / 2 ≤ t
  le_high : t ≤ n + 1 / 2
  off_ends : n % 2 = 1 → t ≠ n - 1 / 2 ∧ t ≠ n + 1 / 2

theorem describes_exact (m : Nat) :
    Describes (.ofMantissaAndAccuracy m .exact) m := by
  constructor <;> simp [kept, ExtendedMantissa.ofMantissaAndAccuracy]

theorem kept_shiftRightOne (em : ExtendedMantissa) :
    kept em.shiftRightOne = (em.mantissa : ℚ) / 2 := by
  have hmod : ((em.mantissa % 2 : Nat) : ℚ) + 2 * ((em.mantissa / 2 : Nat) : ℚ) = em.mantissa := by
    exact_mod_cast Nat.mod_add_div em.mantissa 2
  rcases Nat.mod_two_eq_zero_or_one em.mantissa with hm | hm <;> rw [hm] at hmod <;>
    simp [kept, ExtendedMantissa.shiftRightOne, hm] <;> push_cast at hmod <;> linarith

theorem kept_eq (em : ExtendedMantissa) :
    (em.mantissa : ℚ) ≤ kept em ∧ kept em ≤ em.mantissa + 1 / 2 ∧
      (em.roundBit = false ↔ kept em = em.mantissa) := by
  cases hround : em.roundBit <;> simp [kept, hround]

theorem Describes.shiftRightOne {em : ExtendedMantissa} {t : ℚ} (h : Describes em t) :
    Describes em.shiftRightOne (t / 2) := by
  obtain ⟨hle, hlt, hexact⟩ := h
  obtain ⟨hlow, hhigh, hround⟩ := kept_eq em
  refine ⟨?_, ?_, ?_⟩
  · rw [kept_shiftRightOne]
    linarith
  · rw [kept_shiftRightOne]
    linarith
  · rw [kept_shiftRightOne,
      show em.shiftRightOne.stickyBit = (em.roundBit || em.stickyBit) from rfl,
      Bool.or_eq_false_iff, hexact, hround]
    constructor
    · rintro ⟨hkept, ht⟩
      rw [ht, hkept]
    · intro ht
      have : t = em.mantissa := by linarith
      constructor <;> linarith

theorem Describes.shiftRight {em : ExtendedMantissa} {t : ℚ} (h : Describes em t) (n : Nat) :
    Describes (em >>> n) (t / 2 ^ n) := by
  show Describes (n.repeat ExtendedMantissa.shiftRightOne em) _
  induction n with
  | zero => simpa [Nat.repeat] using h
  | succ n ih =>
      rw [Nat.repeat, pow_succ, ← div_div]
      exact ih.shiftRightOne

theorem Describes.isNearest {em : ExtendedMantissa} {t : ℚ} (h : Describes em t) :
    IsNearest t em.roundedMantissa := by
  obtain ⟨hle, hlt, hexact⟩ := h
  obtain ⟨m, round, sticky⟩ := em
  simp only [kept] at hle hlt hexact
  cases round with
  | false =>
      have hround : ExtendedMantissa.roundedMantissa ⟨m, false, sticky⟩ = m := by
        cases sticky <;> rfl
      simp only [Bool.false_eq_true, if_false, add_zero] at hle hlt
      rw [hround]
      exact ⟨by linarith, by linarith, fun _ => ⟨by linarith, by linarith⟩⟩
  | true =>
      simp only [if_true] at hle hlt hexact
      cases sticky with
      | false =>
          -- halfway between two, of which the even one is taken
          have ht := hexact.1 rfl
          rw [show ExtendedMantissa.roundedMantissa ⟨m, true, false⟩ = m + m % 2 from rfl]
          rcases Nat.mod_two_eq_zero_or_one m with hm | hm <;> rw [hm]
          · exact ⟨by push_cast; linarith, by push_cast; linarith, fun hodd => by omega⟩
          · exact ⟨by push_cast; linarith, by push_cast; linarith, fun hodd => by omega⟩
      | true =>
          have ht : t ≠ (m : ℚ) + 1 / 2 := fun h => by simpa using hexact.2 h
          have hgt := lt_of_le_of_ne hle ht.symm
          rw [show ExtendedMantissa.roundedMantissa ⟨m, true, true⟩ = m + 1 from rfl]
          constructor <;> push_cast
          · linarith
          · linarith
          · exact fun _ => ⟨by linarith, by linarith⟩

/-! ### Exponents -/

/-- The exponent at which a significand has as many bits as there are. -/
def target (m : Nat) (e : Int) : Int := max (m.log2 + 1 + e - 53) (-1074)

theorem targetExponent_eq (m : Nat) (e : Int) :
    Format.binary64.targetExponent (totalExponent m e) = target m e := rfl

theorem shiftToTarget_eq {m : Nat} {e : Int} (acc : Accuracy) (h : e ≤ target m e) :
    shiftToTargetExponent Format.binary64 m e acc =
      (ExtendedMantissa.ofMantissaAndAccuracy m acc >>> (target m e - e).toNat, target m e) := by
  have hexponent : e + ((target m e - e).toNat : Int) = target m e := by omega
  rw [shiftToTargetExponent, shiftToExponent, targetExponent_eq, hexponent]

theorem log2_le {m k : Nat} (h : m < 2 ^ (k + 1)) : m.log2 ≤ k := by
  by_cases hm : m = 0
  · simp [hm]
  · have := (Nat.log2_lt hm).2 h
    omega

theorem shiftToTarget_of_lt {m : Nat} {e : Int} (hm : m < 2 ^ 53) (he : -1074 ≤ e) :
    shiftToTargetExponent Format.binary64 m e .exact = (⟨m, false, false⟩, e) := by
  have hlog := log2_le hm
  have htarget : (target m e - e).toNat = 0 := by
    simp only [target]
    omega
  rw [shiftToTargetExponent, shiftToExponent, targetExponent_eq, htarget]
  simp [ExtendedMantissa.ofMantissaAndAccuracy, HShiftRight.hShiftRight, Nat.repeat]

/-- A significand that has been rounded up to one bit more loses it. -/
theorem shiftToTarget_carry {e : Int} (he : -1074 ≤ e) :
    shiftToTargetExponent Format.binary64 (2 ^ 53) e .exact = (⟨2 ^ 52, false, false⟩, e + 1) := by
  have htarget : target (2 ^ 53) e = e + 1 := by
    simp only [target, Nat.log2_two_pow]
    omega
  rw [shiftToTarget_eq _ (by omega), htarget, show (e + 1 - e).toNat = 1 by omega]
  rfl

theorem roundWithAccuracy_eq (sign : Sign) {m : Nat} {e : Int} {acc : Accuracy} {n : Nat}
    (h : e ≤ target m e)
    (hn : (ExtendedMantissa.ofMantissaAndAccuracy m acc >>>
      (target m e - e).toNat).roundedMantissa = n) (hle : n ≤ 2 ^ 53) :
    roundWithAccuracy Format.binary64 sign m e acc =
      if hzero : n = 0 then .zero sign
      else if n < 2 ^ 53 then .finite sign n (target m e) (Nat.pos_of_ne_zero hzero)
      else .finite sign (2 ^ 52) (target m e + 1) (by decide) := by
  have he : -1074 ≤ target m e := Int.le_max_right _ _
  rw [roundWithAccuracy, shiftToTarget_eq _ h]
  simp only [hn]
  by_cases hlt : n < 2 ^ 53
  · simp only [shiftToTarget_of_lt hlt he, hlt, if_true]
  · obtain rfl : n = 2 ^ 53 := by omega
    simp only [shiftToTarget_carry he]
    rfl

/-! ### What numbers round to -/

theorem two_zpow_eq (e : Int) : (2 : ℚ) ^ e = 4 * (2 : ℚ) ^ (e - 2) := by
  rw [zpow_sub₀ (by norm_num)]
  norm_num
  ring

theorem value_eq (b : Binary) : b.value = 4 * b.significand * (2 : ℚ) ^ (b.exponent - 2) := by
  rw [Binary.value, two_zpow_eq]
  ring

/-- The nearest significand makes up the number that is rounded to. Below the least significand with
all bits the numbers lie closer. -/
theorem takes_standard {n : Nat} {e : Int} {q : ℚ} (h : IsNearest (q / 2 ^ e) n)
    (hnarrow : n = 2 ^ 52 → e ≠ -1074 → (n : ℚ) - 1 / 4 ≤ q / 2 ^ e) :
    (Binary.standard n e).Takes q := by
  have hunit := Binary.two_zpow_pos (e - 2)
  obtain ⟨t, ht⟩ : ∃ t : ℚ, t = q / 2 ^ e := ⟨_, rfl⟩
  have hq : q = 4 * t * (2 : ℚ) ^ (e - 2) := by
    rw [ht, two_zpow_eq e]
    field_simp
  rw [← ht] at h hnarrow
  have hlow : (4 * n - if (Binary.standard n e).narrow then 1 else 2 : ℚ) ≤ 4 * t := by
    have := h.low_le
    by_cases hn : (Binary.standard n e).narrow
    · have hends : n = 2 ^ 52 ∧ e ≠ -1074 := by simpa [Binary.standard] using hn
      have := hnarrow hends.1 hends.2
      rw [if_pos hn]
      linarith
    · rw [if_neg hn]
      linarith
  refine ⟨?_, ?_, fun hodd => ?_⟩
  · rw [hq]
    exact mul_le_mul_of_nonneg_right hlow hunit.le
  · have hhigh : 4 * t ≤ 4 * n + 2 := by linarith [h.le_high]
    rw [hq]
    exact mul_le_mul_of_nonneg_right hhigh hunit.le
  · replace hodd : n % 2 = 1 := hodd
    have hwide : (Binary.standard n e).narrow = false := by
      simp only [Binary.standard, decide_eq_false_iff_not, not_and]
      omega
    obtain ⟨hl, hh⟩ := h.off_ends hodd
    rw [hq, Binary.low, Binary.high, hwide]
    simp only [Bool.false_eq_true, if_false, ne_eq, mul_left_inj' hunit.ne', Binary.standard]
    exact ⟨fun h => hl (by linarith), fun h => hh (by linarith)⟩

/-- What `q` rounds to, with a sign and whatever its exponent. At most half of the least number
rounds to zero. -/
inductive Rounds (sign : Sign) (q : ℚ) : UnpackedFloat → Prop
  | zero (h : q ≤ (2 : ℚ) ^ (-1075 : Int)) : Rounds sign q (.zero sign)
  | finite {x : Binary} (h : x.IsStandard) (ht : x.Takes q) :
      Rounds sign q (.finite sign x.significand x.exponent h.pos)

section Bounds

variable {m k : Nat} {acc : Accuracy} {t : ℚ}

theorem mantissa_ofMantissaAndAccuracy (m : Nat) (acc : Accuracy) :
    (ExtendedMantissa.ofMantissaAndAccuracy m acc).mantissa = m := by
  rcases acc with _ | (_ | _ | _) <;> rfl

/-- A significand that loses its last bits has no more than 53 left. -/
theorem Describes.lt_full (h : Describes (.ofMantissaAndAccuracy m acc) t) (hm : m.log2 ≤ 52 + k) :
    t / 2 ^ k < 2 ^ 53 := by
  have hkept := (kept_eq (ExtendedMantissa.ofMantissaAndAccuracy m acc)).2.1
  rw [mantissa_ofMantissaAndAccuracy] at hkept
  have hlog : m + 1 ≤ 2 ^ (53 + k) :=
    le_trans Nat.lt_log2_self (Nat.pow_le_pow_right (by norm_num) (by omega))
  have hlog' : (m : ℚ) + 1 ≤ 2 ^ 53 * 2 ^ k := by
    rw [← pow_add]
    exact_mod_cast hlog
  rw [div_lt_iff₀ (by positivity)]
  linarith [h.lt_kept]

theorem Describes.full_le (h : Describes (.ofMantissaAndAccuracy m acc) t) (hm : m.log2 = 52 + k) :
    (2 : ℚ) ^ 52 ≤ t / 2 ^ k := by
  have hkept := (kept_eq (ExtendedMantissa.ofMantissaAndAccuracy m acc)).1
  rw [mantissa_ofMantissaAndAccuracy] at hkept
  have hne : m ≠ 0 := fun hzero => by
    rw [hzero, Nat.log2_zero] at hm
    omega
  have hself : ((2 ^ 52 * 2 ^ k : Nat) : ℚ) ≤ m := by
    rw [← pow_add, ← hm]
    exact_mod_cast Nat.log2_self_le hne
  push_cast at hself
  rw [le_div_iff₀ (by positivity)]
  linarith [h.kept_le]

end Bounds

/-- The nearest significand, with one bit more if it has been rounded up to that. -/
theorem rounds_of_nearest (sign : Sign) {n : Nat} {e : Int} {q : ℚ}
    (hnear : IsNearest (q / 2 ^ e) n)
    (hleast : -1074 ≤ e) (hle : n ≤ 2 ^ 53) (hge : e ≠ -1074 → (2 : ℚ) ^ 52 ≤ q / 2 ^ e) :
    Rounds sign q (if hzero : n = 0 then .zero sign
      else if n < 2 ^ 53 then .finite sign n e (Nat.pos_of_ne_zero hzero)
      else .finite sign (2 ^ 52) (e + 1) (by decide)) := by
  have hfull : 2 ^ 52 ≤ n ∨ e = -1074 := by
    refine or_iff_not_imp_right.2 fun hne => ?_
    have : (2 ^ 52 : ℚ) < n + 1 := by linarith [hge hne, hnear.le_high]
    have : 2 ^ 52 < n + 1 := by exact_mod_cast this
    omega
  by_cases hzero : n = 0
  · have hmin : e = -1074 := hfull.resolve_left (by omega)
    have hhalf := hnear.le_high
    rw [hzero, hmin, div_le_iff₀ (Binary.two_zpow_pos _)] at hhalf
    rw [dif_pos hzero]
    refine .zero (hhalf.trans_eq ?_)
    rw [show (-1075 : Int) = -1074 + -1 by norm_num, zpow_add₀ (by norm_num), mul_comm]
    norm_num
  · have hpos := Nat.pos_of_ne_zero hzero
    rw [dif_neg hzero]
    by_cases hsmall : n < 2 ^ 53
    · rw [if_pos hsmall]
      refine .finite (Binary.isStandard_standard hpos hsmall hleast hfull)
        (takes_standard hnear fun heq hne => ?_)
      have hmin := hge hne
      rw [heq]
      push_cast
      linarith
    · obtain rfl : n = 2 ^ 53 := by omega
      rw [if_neg hsmall]
      refine .finite (Binary.isStandard_standard (by norm_num) (by norm_num) (by omega)
        (.inl le_rfl)) ?_
      -- just below the lowest number with one bit more
      have hlow := hnear.low_le
      have hhigh := hnear.le_high
      have hnext : q / 2 ^ (e + 1) = q / 2 ^ e / 2 := by
        rw [zpow_add₀ (by norm_num), zpow_one, div_div]
      push_cast at hlow hhigh
      refine takes_standard ⟨?_, ?_, fun hodd => absurd hodd (by norm_num)⟩ fun _ _ => ?_ <;>
        rw [hnext] <;> push_cast <;> linarith

theorem roundWithAccuracy_rounds (sign : Sign) {m : Nat} {e : Int} {acc : Accuracy} {q : ℚ}
    (hq : Describes (.ofMantissaAndAccuracy m acc) (q / 2 ^ e)) (h : e ≤ target m e) :
    Rounds sign q (roundWithAccuracy Format.binary64 sign m e acc) := by
  obtain ⟨k, hk⟩ : ∃ k : Nat, k = (target m e - e).toNat := ⟨_, rfl⟩
  have htarget : target m e = e + k := by omega
  have hscale : q / 2 ^ target m e = q / 2 ^ e / 2 ^ k := by
    rw [htarget, zpow_add₀ (by norm_num), zpow_natCast, div_div]
  obtain ⟨n, hn⟩ : ∃ n, (ExtendedMantissa.ofMantissaAndAccuracy m acc >>> k).roundedMantissa = n :=
    ⟨_, rfl⟩
  have hnear : IsNearest (q / 2 ^ target m e) n := by
    rw [hscale, ← hn]
    exact (hq.shiftRight k).isNearest
  have hlt : q / 2 ^ target m e < 2 ^ 53 := hscale ▸ hq.lt_full (by
    simp only [target] at htarget
    omega)
  have hle : n ≤ 2 ^ 53 := by
    have : (n : ℚ) < 2 ^ 53 + 1 := by linarith [hnear.low_le]
    have : n < 2 ^ 53 + 1 := by exact_mod_cast this
    omega
  rw [roundWithAccuracy_eq sign h (hk ▸ hn) hle]
  refine rounds_of_nearest sign hnear (Int.le_max_right _ _) hle fun hne => ?_
  refine hscale ▸ hq.full_le ?_
  simp only [target] at htarget hne
  omega

theorem round_exact (sign : Sign) {m : Nat} {e : Int} (h : e ≤ target m e) :
    Rounds sign (m * (2 : ℚ) ^ e) (roundWithAccuracy Format.binary64 sign m e .exact) := by
  refine roundWithAccuracy_rounds sign ?_ h
  rw [mul_div_cancel_right₀ _ (Binary.two_zpow_pos e).ne']
  exact describes_exact m

end StatAlmanac.Binary64
