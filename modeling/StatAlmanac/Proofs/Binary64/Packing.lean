import StatAlmanac.Proofs.Binary64.Rounding
import StatAlmanac.Decimal.Numeral

/-!
Binary64 numbers and their bits. A number that is in standard form and not too large
is packed into bits that are unpacked to it again, and two numbers with the same sign
and the same standard form are one.
-/

namespace StatAlmanac.Binary64

open Float.Model Float.Model.UnpackedFloat Decimal

/-! ### Components -/

variable {b : BitVec 64} {s : Sign} {m : Nat} {e : Int}

theorem toNat_unpackExponent (b : BitVec 64) :
    (@unpackExponent Format.binary64 b).toNat = b.toNat / 2 ^ 52 % 2 ^ 11 := by
  simp [unpackExponent, Nat.shiftRight_eq_div_pow]

theorem toNat_unpackMantissa (b : BitVec 64) :
    (@unpackMantissa Format.binary64 b).toNat = b.toNat % 2 ^ 52 := by
  simp [unpackMantissa]

theorem ofBitVec_unpackSign (b : BitVec 64) :
    Sign.ofBitVec (@unpackSign Format.binary64 b) =
      if 2 ^ 63 ≤ b.toNat then .negative else .positive := by
  have hsign : (@unpackSign Format.binary64 b).toNat = b.toNat / 2 ^ 63 % 2 := by
    simp [unpackSign, Nat.shiftRight_eq_div_pow]
  have hlt := b.isLt
  rw [Sign.ofBitVec]
  by_cases hb : 2 ^ 63 ≤ b.toNat
  · rw [if_pos hb, if_neg]
    rw [← BitVec.toNat_inj, hsign]
    simp
    omega
  · rw [if_neg hb, if_pos]
    rw [← BitVec.toNat_inj, hsign]
    simp
    omega

theorem toNat_one_append (v : BitVec 52) : (1#1 ++ v).toNat = 2 ^ 52 + v.toNat := by
  rw [BitVec.toNat_append, ← Nat.shiftLeft_add_eq_or_of_lt v.isLt]
  rfl

theorem toNat_lt_of_ne_allOnes {v : BitVec 11} (h : v ≠ -1#11) : v.toNat < 2047 := by
  have hlt := v.isLt
  rw [ne_eq, ← BitVec.toNat_inj] at h
  simp only [BitVec.reduceNeg, BitVec.toNat_ofNat] at h
  omega

theorem toNat_pos_of_ne_zero {v : BitVec 11} (h : v ≠ 0#11) : 0 < v.toNat := by
  rw [ne_eq, ← BitVec.toNat_inj] at h
  simpa [Nat.pos_iff_ne_zero] using h

theorem unpack_finite {h : 0 < m} (hu : unpack Format.binary64 b = .finite s m e h) :
    s = (if 2 ^ 63 ≤ b.toNat then .negative else .positive) ∧
      (b.toNat / 2 ^ 52 % 2 ^ 11 = 0 ∧ m = b.toNat % 2 ^ 52 ∧ e = -1074 ∨
        0 < b.toNat / 2 ^ 52 % 2 ^ 11 ∧ b.toNat / 2 ^ 52 % 2 ^ 11 < 2047 ∧
          m = 2 ^ 52 + b.toNat % 2 ^ 52 ∧ e = (b.toNat / 2 ^ 52 % 2 ^ 11 : Nat) - 1075) := by
  rw [← ofBitVec_unpackSign, ← toNat_unpackExponent, ← toNat_unpackMantissa]
  unfold UnpackedFloat.unpack at hu
  simp only at hu
  split at hu
  · split at hu <;> cases hu
  · rename_i hfin
    split at hu
    · rename_i hzero
      split at hu
      · cases hu
      · cases hu
        refine ⟨rfl, .inl ⟨by simp [hzero], rfl, ?_⟩⟩
        rw [hzero]
        rfl
    · rename_i hzero
      cases hu
      refine ⟨rfl,
        .inr ⟨toNat_pos_of_ne_zero hzero, toNat_lt_of_ne_allOnes hfin, toNat_one_append _, rfl⟩⟩

theorem unpack_zero (hu : unpack Format.binary64 b = .zero s) :
    s = (if 2 ^ 63 ≤ b.toNat then .negative else .positive) ∧
      b.toNat / 2 ^ 52 % 2 ^ 11 = 0 ∧ b.toNat % 2 ^ 52 = 0 := by
  rw [← ofBitVec_unpackSign, ← toNat_unpackExponent, ← toNat_unpackMantissa]
  unfold UnpackedFloat.unpack at hu
  simp only at hu
  split at hu
  · split at hu <;> cases hu
  · split at hu
    · rename_i hexponent
      split at hu
      · rename_i hmantissa
        cases hu
        exact ⟨rfl, by simp [hexponent], by simp [hmantissa]⟩
      · cases hu
    · cases hu

theorem finite_congr {m' : Nat} {e' : Int} {h : 0 < m} (hm : m = m') (he : e = e') :
    UnpackedFloat.finite s m e h = .finite s m' e' (hm ▸ h) := by
  subst hm he
  rfl

theorem unpack_normal (s : Sign) {exponent : BitVec 11} (mantissa : BitVec 52)
    (hpos : exponent ≠ 0#11) (hmax : exponent ≠ -1#11) :
    unpack Format.binary64 (packComponents Format.binary64 s exponent mantissa) =
      .finite s (2 ^ 52 + mantissa.toNat) (exponent.toNat - 1075) (by omega) := by
  unfold UnpackedFloat.unpack
  simp only [unpackExponent_packComponents, unpackMantissa_packComponents,
    unpackSign_packComponents, Sign.ofBitVec_toBitVec, if_neg hpos, if_neg hmax]
  exact finite_congr (toNat_one_append mantissa) rfl

theorem unpack_subnormal (s : Sign) {mantissa : BitVec 52} (hpos : 0 < mantissa.toNat) :
    unpack Format.binary64 (packComponents Format.binary64 s 0#11 mantissa) =
      .finite s mantissa.toNat (-1074) hpos := by
  have hne : mantissa ≠ 0#52 := fun h => by simp [h] at hpos
  unfold UnpackedFloat.unpack
  simp only [unpackExponent_packComponents, unpackMantissa_packComponents,
    unpackSign_packComponents, Sign.ofBitVec_toBitVec, dif_neg hne]
  rfl

/-- A number in standard form that is not too large comes out of its bits again. -/
theorem unpack_pack {x : Binary} (hx : x.IsStandard) (hle : x.exponent ≤ 971) (s : Sign) :
    unpack Format.binary64
        (UnpackedFloat.pack Format.binary64 (.finite s x.significand x.exponent hx.pos)) =
      .finite s x.significand x.exponent hx.pos := by
  have hleast := hx.least
  have hlt := hx.lt
  obtain ⟨n, hn⟩ : ∃ n : Nat, x.exponent = (n : Int) - 1075 := ⟨(x.exponent + 1075).toNat, by omega⟩
  have hbias : (x.exponent + ((Format.binary64.exponentBias : Nat) : Int) +
      ((Format.binary64.mantissaBitsWithoutImplicit : Nat) : Int)).toNat = n := by
    show (x.exponent + 1023 + 52).toNat = n
    omega
  have hsmall : ¬2 ^ Format.binary64.exponentBits ≤ n + 1 := by
    show ¬2 ^ 11 ≤ n + 1
    omega
  rw [UnpackedFloat.pack]
  simp only [hbias, if_neg hsmall]
  by_cases hfull : 2 ^ 52 ≤ x.significand
  · have hlog : x.significand.log2 = 52 := (Nat.log2_eq_iff hx.pos.ne').2 ⟨hfull, hx.lt⟩
    have hexponent : (BitVec.ofNat 11 n).toNat = n := by
      simp only [BitVec.toNat_ofNat]
      omega
    rw [if_pos (by rw [hlog]; rfl), unpack_normal]
    · refine finite_congr ?_ ?_
      · simp only [BitVec.toNat_ofNat]
        omega
      · rw [hexponent]
        omega
    · intro h
      simp only [h, BitVec.toNat_ofNat] at hexponent
      omega
    · intro h
      simp only [h, BitVec.reduceNeg, BitVec.toNat_ofNat] at hexponent
      omega
  · have hlog : x.significand.log2 < 52 := (Nat.log2_lt hx.pos.ne').2 (by omega)
    have hmantissa : (BitVec.ofNat 52 x.significand).toNat = x.significand := by
      simp only [BitVec.toNat_ofNat]
      omega
    rw [if_neg (by show ¬x.significand.log2 + 1 = 53; omega), unpack_subnormal s (by
      rw [hmantissa]
      exact hx.pos)]
    exact finite_congr hmantissa (hx.full.resolve_left hfull).symm

theorem unpack_pack_zero (s : Sign) :
    unpack Format.binary64 (UnpackedFloat.pack Format.binary64 (.zero s)) = .zero s :=
  unpack_packedZero

/-! ### Floats -/

/-- `x` is the number with this sign and this magnitude. -/
structure Is (x : Float) (sign : Sign) (b : Binary) : Prop where
  isStandard : b.IsStandard
  unpack_eq : x.toModel.unpack = .finite sign b.significand b.exponent isStandard.pos

def IsZero (x : Float) (sign : Sign) : Prop := x.toModel.unpack = .zero sign

variable {x y : Float} {sign : Sign} {c : Binary}

theorem eq_of_unpack (h : x.toModel.unpack = y.toModel.unpack) : x = y := by
  obtain ⟨⟨xbits, hx⟩⟩ := x
  obtain ⟨⟨ybits, hy⟩⟩ := y
  have hbits := UInt64.toBitVec_inj.1 ((unpack_inj_of_valid hx hy).1 h)
  simp only [Float.ofModel.injEq, Float.Model.mk.injEq]
  exact hbits

theorem Is.isFinite (h : Is x sign c) : x.isFinite = true := by
  show x.toModel.unpack.isFinite = true
  rw [h.unpack_eq]
  rfl

theorem IsZero.isFinite (h : IsZero x sign) : x.isFinite = true := by
  show x.toModel.unpack.isFinite = true
  rw [h]
  rfl

theorem Is.eq (hx : Is x sign c) (hy : Is y sign c) : x = y :=
  eq_of_unpack (hx.unpack_eq.trans hy.unpack_eq.symm)

theorem IsZero.eq (hx : IsZero x sign) (hy : IsZero y sign) : x = y :=
  eq_of_unpack (Eq.trans hx (Eq.symm hy))

theorem isNegative_eq (hs : sign = if 2 ^ 63 ≤ x.toModel.toBits.toBitVec.toNat then .negative
    else .positive) : isNegative x = (sign == .negative) := by
  rw [isNegative, hs]
  show decide (2 ^ 63 ≤ x.toModel.toBits.toBitVec.toNat) = _
  split <;> rename_i h <;> simp only [h] <;> rfl

theorem Is.isNegative (h : Is x sign c) : isNegative x = (sign == .negative) :=
  isNegative_eq (unpack_finite h.unpack_eq).1

theorem IsZero.isNegative (h : IsZero x sign) : isNegative x = (sign == .negative) :=
  isNegative_eq (unpack_zero h).1

theorem Is.exponent_le (h : Is x sign c) : c.exponent ≤ 971 := by
  have := (unpack_finite h.unpack_eq).2
  omega

theorem binaryOfBits_eq (bits : UInt64) : Binary.ofBits bits =
    if bits.toNat / 2 ^ 52 % 2 ^ 11 = 0 then ⟨bits.toNat % 2 ^ 52, -1074, false⟩
    else ⟨2 ^ 52 + bits.toNat % 2 ^ 52, (bits.toNat / 2 ^ 52 % 2 ^ 11 : Nat) - 1075,
      bits.toNat % 2 ^ 52 == 0 && bits.toNat / 2 ^ 52 % 2 ^ 11 != 1⟩ := rfl

theorem ofBits_of_unpack {h : 0 < m} (hu : x.toModel.unpack = .finite s m e h) :
    Binary.ofBits x.toBits = .standard m e ∧ (Binary.standard m e).IsStandard := by
  have hparts := (unpack_finite hu).2
  have hbits : x.toBits.toNat = x.toModel.toBits.toBitVec.toNat := rfl
  simp only [← hbits] at hparts
  constructor
  · rw [binaryOfBits_eq, Binary.standard]
    rcases hparts with ⟨hfield, rfl, rfl⟩ | ⟨hfield, -, rfl, rfl⟩
    · rw [if_pos hfield, Binary.mk.injEq]
      refine ⟨rfl, rfl, ?_⟩
      simp
    · rw [if_neg hfield.ne', Binary.mk.injEq]
      refine ⟨rfl, rfl, ?_⟩
      rw [Bool.eq_iff_iff]
      simp only [Bool.and_eq_true, beq_iff_eq, bne_iff_ne, decide_eq_true_eq]
      omega
  · exact Binary.isStandard_standard h (by omega) (by omega) (by omega)

theorem Is.ofBits (h : Is x sign c) : Binary.ofBits x.toBits = c :=
  (ofBits_of_unpack h.unpack_eq).1.trans h.isStandard.eq_standard.symm

theorem IsZero.ofBits (h : IsZero x sign) : (Binary.ofBits x.toBits).significand = 0 := by
  obtain ⟨-, he, hm⟩ := unpack_zero h
  have hbits : x.toBits.toNat = x.toModel.toBits.toBitVec.toNat := rfl
  rw [binaryOfBits_eq, hbits, if_pos he]
  exact hm

theorem isZero_or_is (h : x.isFinite = true) :
    (∃ sign, IsZero x sign) ∨ ∃ sign, Is x sign (Binary.ofBits x.toBits) := by
  replace h : x.toModel.unpack.isFinite = true := h
  cases hu : x.toModel.unpack with
  | infinity s =>
      rw [hu] at h
      cases h
  | notANumber =>
      rw [hu] at h
      cases h
  | zero s => exact .inl ⟨s, hu⟩
  | finite s m e hpos =>
      obtain ⟨hbits, hstandard⟩ := ofBits_of_unpack hu
      exact .inr ⟨s, hbits ▸ ⟨hstandard, hu⟩⟩

theorem Is.neg (h : Is x sign c) : Is (-x) (-sign) c := by
  refine ⟨h.isStandard, ?_⟩
  show UnpackedFloat.unpack _ (UnpackedFloat.pack _ x.toModel.unpack.neg) = _
  rw [h.unpack_eq]
  exact unpack_pack h.isStandard h.exponent_le _

theorem IsZero.neg (h : IsZero x sign) : IsZero (-x) (-sign) := by
  show UnpackedFloat.unpack _ (UnpackedFloat.pack _ x.toModel.unpack.neg) = _
  rw [show x.toModel.unpack = .zero sign from h]
  exact unpack_pack_zero _

theorem isFinite_neg (h : x.isFinite = true) : (-x).isFinite = true := by
  rcases isZero_or_is h with ⟨s, hzero⟩ | ⟨s, hnumber⟩
  · exact hzero.neg.isFinite
  · exact hnumber.neg.isFinite

end StatAlmanac.Binary64
