import StatAlmanac.Proofs.Binary64.Arithmetic

/-!
Decimals as floats. One that is not too large is read as the number that its value
rounds to, with as many digits behind the point as one likes. One that is too large is
read as infinity, and none as NaN.
-/

namespace StatAlmanac.Binary64

open Float.Model Float.Model.UnpackedFloat Decimal

variable {x : Float} {s : Sign} {b : Binary} {q : ℚ} {m k : Nat}

/-! ### Too large a number -/

theorem unpack_packedInfinity (s : Sign) :
    unpack Format.binary64 (packedInfinity Format.binary64 s) = .infinity s := by
  rw [packedInfinity, UnpackedFloat.unpack]
  simp only [unpackExponent_packComponents, unpackMantissa_packComponents,
    unpackSign_packComponents, Sign.ofBitVec_toBitVec, if_true]
  rfl

theorem unpack_pack_large (hb : b.IsStandard) (he : 971 < b.exponent) (s : Sign) :
    unpack Format.binary64
        (UnpackedFloat.pack Format.binary64 (.finite s b.significand b.exponent hb.pos)) =
      .infinity s := by
  have hlarge : 2 ^ Format.binary64.exponentBits ≤
      (b.exponent + ((Format.binary64.exponentBias : Nat) : Int) +
        ((Format.binary64.mantissaBitsWithoutImplicit : Nat) : Int)).toNat + 1 := by
    show 2 ^ 11 ≤ (b.exponent + 1023 + 52).toNat + 1
    omega
  rw [UnpackedFloat.pack]
  simp only [if_pos hlarge]
  exact unpack_packedInfinity s

def IsOrdered (x : Float) : Prop := x.isFinite = true ∨ ∃ sign, x.toModel.unpack = .infinity sign

theorem IsOrdered.isNaN (h : IsOrdered x) : x.isNaN = false := by
  show x.toModel.unpack.isNaN = false
  rcases h with hfinite | ⟨sign, hinfinite⟩
  · rcases isZero_or_is hfinite with ⟨sign, hzero⟩ | ⟨sign, hnumber⟩
    · rw [show x.toModel.unpack = .zero sign from hzero]
      rfl
    · rw [hnumber.unpack_eq]
      rfl
  · rw [hinfinite]
    rfl

theorem Rounds.isOrdered {u : UnpackedFloat} (h : Rounds s q u)
    (hx : x.toModel = Float.Model.pack u) :
    IsOrdered x := by
  cases h with
  | zero => exact .inl (isZero_of_pack hx).isFinite
  | @finite b hb ht =>
      have hunpack : x.toModel.unpack = unpack Format.binary64
          (UnpackedFloat.pack Format.binary64 (.finite s b.significand b.exponent hb.pos)) := by
        rw [hx]
        rfl
      by_cases he : b.exponent ≤ 971
      · exact .inl (Is.isFinite ⟨hb, hunpack.trans (unpack_pack hb he s)⟩)
      · exact .inr ⟨s, hunpack.trans (unpack_pack_large hb (by omega) s)⟩

theorem IsOrdered.isFinite (h : IsOrdered x) (hinf : x.isInf = false) : x.isFinite = true := by
  rcases h with hfinite | ⟨sign, hinfinite⟩
  · exact hfinite
  · replace hinf : x.toModel.unpack.isInf = false := hinf
    rw [hinfinite] at hinf
    cases hinf

theorem mul_isOrdered {y : Float} {t : Sign} {c : Binary} (hx : Is x s b) (hy : Is y t c)
    (hfull : 2 ^ 52 ≤ c.significand) : IsOrdered (x * y) := by
  have hpos := hx.isStandard.pos
  refine (mul_rounds s t hpos hy.isStandard.pos
    (hfull.trans (Nat.le_mul_of_pos_left _ hpos))).isOrdered ?_
  show Float.Model.pack (UnpackedFloat.mul _ x.toModel.unpack y.toModel.unpack) = _
  rw [hx.unpack_eq, hy.unpack_eq]

/-- What is rounded is finite exactly when it is not too large. -/
theorem Rounds.isFinite_iff {u : UnpackedFloat} (h : Rounds s q u)
    (hx : x.toModel = Float.Model.pack u) : x.isFinite = true ↔ q < overflow := by
  refine ⟨fun hfinite => ?_, fun hlt => (h.nearest hlt hx).isFinite⟩
  cases h with
  | zero hzero =>
      refine hzero.trans_lt ((zpow_lt_one_of_neg₀ (by norm_num) (by norm_num)).trans ?_)
      exact_mod_cast lt_overflow (by norm_num : 1 < 2 ^ 64)
  | @finite b hb ht =>
      refine lt_overflow_of_takes hb ?_ ht
      by_contra hlarge
      replace hfinite : x.toModel.unpack.isFinite = true := hfinite
      rw [hx] at hfinite
      have hinfinite := unpack_pack_large hb (not_le.1 hlarge) s
      rw [show (Float.Model.pack _).unpack = _ from hinfinite] at hfinite
      cases hfinite

/-! ### Decimals -/

/-- With few digits, and few places, the value is the quotient of two exact numbers. -/
theorem fraction_nearest (hpos : 0 < m) (hm : m < 2 ^ 53) (hk : k ≤ 22) :
    Nearest (Float.ofScientific m true k) .positive (m / 10 ^ k : ℚ) := by
  obtain ⟨b, hb, -, hvalue⟩ := powersOfTen_is (Nat.lt_succ_of_le hk)
  obtain ⟨a, ha, hvalue'⟩ := toUInt64_nearest hpos hm
  have hquotient : a.value / b.value = m / 10 ^ k := by
    rw [hvalue, hvalue']
    push_cast
    rfl
  have hle : (m : ℚ) / 10 ^ k ≤ m :=
    div_le_self (Nat.cast_nonneg m) (one_le_pow₀ (by norm_num))
  rw [← hquotient] at hle ⊢
  rw [Float.ofScientific, dif_pos ⟨hm, hk⟩]
  exact div_nearest ha hb (hle.trans_lt (Nat.cast_lt.2 (lt_overflow (by omega))))

theorem ofScientific_zero (down : Bool) (k : Nat) :
    IsZero (Float.ofScientific 0 down k) .positive := by
  rw [Float.ofScientific]
  split
  · rename_i hsmall
    obtain ⟨b, hb, -⟩ := powersOfTen_is (Nat.lt_succ_of_le hsmall.2)
    have hzero : IsZero (Nat.toUInt64 0).toFloat .positive := isZero_of_pack rfl
    cases down with
    | true => exact zero_div_isZero hzero hb
    | false => exact zero_mul_isZero hzero hb
  · exact isZero_of_pack rfl

theorem isFinite_ofNat {n : Nat} (hn : n < 2 ^ 64) : (Float.ofNat n).isFinite = true := by
  rcases Nat.eq_zero_or_pos n with rfl | hpos
  · exact (ofScientific_zero false 0).isFinite
  · exact (ofNat_nearest hpos hn).isFinite

theorem isFinite_zero : (0 : Float).isFinite = true := (ofScientific_zero false 0).isFinite

theorem fraction_rounds (hpos : 0 < m) (hlarge : ¬(m < 2 ^ 53 ∧ k ≤ 22)) :
    ∃ u, Rounds .positive (m / 10 ^ k : ℚ) u ∧
      (Float.ofScientific m true k).toModel = Float.Model.pack u := by
  have hround := scientific_rounds hpos (show (-k : Int) ≤ 2 ^ 11 by omega)
  rw [zpow_neg, zpow_natCast, ← div_eq_mul_inv] at hround
  refine ⟨_, hround, ?_⟩
  rw [Float.ofScientific, dif_neg hlarge]
  cases k <;> rfl

theorem isFinite_fraction (m k : Nat) :
    (Float.ofScientific m true k).isFinite = true ↔ m < overflow * 10 ^ k := by
  have hten : 0 < 10 ^ k := Nat.pow_pos (by norm_num)
  rcases Nat.eq_zero_or_pos m with rfl | hpos
  · have hover : 0 < overflow := lt_overflow (by norm_num)
    simp only [(ofScientific_zero true k).isFinite, Nat.mul_pos hover hten]
  by_cases hsmall : m < 2 ^ 53 ∧ k ≤ 22
  · refine iff_of_true (fraction_nearest hpos hsmall.1 hsmall.2).isFinite ?_
    exact (lt_overflow (by omega)).trans_le (Nat.le_mul_of_pos_right _ hten)
  · obtain ⟨u, hround, hu⟩ := fraction_rounds hpos hsmall
    rw [hround.isFinite_iff hu, div_lt_iff₀ (by positivity)]
    exact_mod_cast Iff.rfl

/-- No decimal is NaN, however large or small. -/
theorem isOrdered_fraction (m k : Nat) : IsOrdered (Float.ofScientific m true k) := by
  by_cases hlt : m < overflow * 10 ^ k
  · exact .inl ((isFinite_fraction m k).2 hlt)
  · have hten : 0 < 10 ^ k := Nat.pow_pos (by norm_num)
    have hpos : 0 < m := by
      have := Nat.mul_pos (lt_overflow (by norm_num) : 0 < overflow) hten
      omega
    have hlarge : ¬(m < 2 ^ 53 ∧ k ≤ 22) := fun hsmall => hlt <|
      (lt_overflow (by omega)).trans_le (Nat.le_mul_of_pos_right _ hten)
    obtain ⟨u, hround, hu⟩ := fraction_rounds hpos hlarge
    exact hround.isOrdered hu

/-- Without places it does not matter which way the power of ten goes. -/
theorem ofScientific_whole (m : Nat) :
    Float.ofScientific m false 0 = Float.ofScientific m true 0 := by
  rcases Nat.eq_zero_or_pos m with rfl | hpos
  · exact (ofScientific_zero false 0).eq (ofScientific_zero true 0)
  by_cases hsmall : m < 2 ^ 53
  · have hproduct := ofScientific_nearest hpos (Nat.zero_le 308)
      ((Nat.mul_one m).symm ▸ lt_overflow (by omega) : m * 10 ^ 0 < overflow)
    have hquotient := fraction_nearest hpos hsmall (Nat.zero_le 22)
    rw [pow_zero, Nat.mul_one] at hproduct
    rw [pow_zero, div_one] at hquotient
    exact hproduct.eq hquotient
  · rw [Float.ofScientific, Float.ofScientific, dif_neg (by omega), dif_neg (by omega)]
    rfl

end StatAlmanac.Binary64
