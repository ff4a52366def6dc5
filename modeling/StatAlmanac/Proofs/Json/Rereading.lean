import StatAlmanac.Proofs.Json.Reals
import StatAlmanac.Proofs.Json.Scaled

/-!
Finite numbers written and read back. The number that comes back is finite, has the same
sign and is close to the one that was written, and it is that one if its significand
and the power of ten are small.
-/

namespace StatAlmanac.Json

open Decimal Binary64

/-- `y` is a number that the text of `x` may be read as. -/
structure IsReread (x y : Float) : Prop where
  isFinite : y.isFinite
  isNegative_eq : Decimal.isNegative y = Decimal.isNegative x
  /-- It is off by no more than a part of `2 ^ 50`, or among the least numbers by two of their
  steps. -/
  close : |size y - size x| ≤ (2 : ℚ) ^ (-50 : Int) * size x + (2 : ℚ) ^ (-1073 : Int)
  /-- A significand of 53 bits with a power of ten that is held as it is comes back bit for bit. -/
  exact : (written (ofFloat x)).1 < 2 ^ 53 → (written (ofFloat x)).2.natAbs ≤ 22 → y = x

variable {x y : Float} {b : Binary} {d : Decimal} {s : Float.Model.UnpackedFloat.Sign}

theorem isReread_self (hx : x.isFinite) : IsReread x x := by
  refine ⟨hx, rfl, ?_, fun _ _ => rfl⟩
  rw [sub_self, abs_zero]
  exact add_nonneg (mul_nonneg (Binary.two_zpow_pos _).le (size_nonneg x))
    (Binary.two_zpow_pos _).le

theorem written_value (d : Decimal) :
    ((written d).1 : ℚ) * (10 : ℚ) ^ (written d).2 = d.value := by
  simp only [written]
  split
  · rename_i hzero
    rw [Decimal.value, hzero, Nat.cast_zero, zero_mul, zero_mul]
  · split
    · rename_i h
      rw [Decimal.value, show d.exponent = (d.exponent.toNat : Int) by omega, zpow_natCast,
        Int.toNat_natCast]
      push_cast
      rw [pow_succ, zpow_neg_one]
      field_simp
    · rfl

theorem length_digitList_le (h : d.digits ≤ 10 ^ 17 + 1) : (digitList d.digits).length ≤ 20 :=
  (Nat.length_toDigits_le_iff (by norm_num) (by norm_num)).2 (by omega)

theorem written_bounds (hpos : 0 < d.digits) (h : d.digits ≤ 10 ^ 17 + 1) :
    0 < (written d).1 ∧ (written d).1 < 2 ^ 64 ∧
    (0 ≤ (written d).2 → d = ⟨(written d).1, (written d).2⟩) := by
  have hmax : maxSignificand = 2 ^ 64 - 1 := by decide
  simp only [written]
  rw [if_neg hpos.ne']
  split
  · rename_i hplain
    have hbelow : plainBelow = 16 := rfl
    have hle := whole_le (d := d) (k := d.exponent.toNat) (by omega)
    refine ⟨by positivity, by omega, fun h => absurd h (by norm_num)⟩
  · exact ⟨hpos, by omega, fun _ => rfl⟩

theorem withSign_nearest {q : ℚ} (hx : Decimal.isNegative x = (s == .negative))
    (h : Nearest y .positive q) :
    Nearest (if Decimal.isNegative x then -y else y) s q := by
  rw [hx]
  cases s
  · exact h.neg
  · exact h

theorem withSign_is (hx : Decimal.isNegative x = (s == .negative)) (h : Is y .positive b) :
    Is (if Decimal.isNegative x then -y else y) s b := by
  rw [hx]
  cases s
  · exact h.neg
  · exact h

theorem numberOf_zero (hx : IsZero x s) : ∃ y, numberOf x = some (.real y) ∧ IsReread x y := by
  have hfloat : ofFloat x = ⟨0, 0⟩ := by
    rw [ofFloat, if_pos hx.ofBits]
  obtain ⟨z, hz⟩ : ∃ z, z = Float.ofNat 0 / tenTo 1 := ⟨_, rfl⟩
  have hscaled : scaled? 0 (-1) = some z := by
    rw [hz]
    rfl
  have hzero : IsZero z .positive := by
    rw [hz]
    rfl
  refine ⟨if Decimal.isNegative x then -z else z, ?_, ?_⟩
  · rw [numberOf, hfloat, number?_layout]
    show (scaled? 0 (-1)).map _ = _
    rw [hscaled]
    rfl
  · have his : IsZero (if Decimal.isNegative x then -z else z) s := by
      rw [hx.isNegative]
      cases s
      · exact hzero.neg
      · exact hzero
    rw [his.eq hx]
    exact isReread_self hx.isFinite

/-- The decimal that is written for a number: one of its own shortest ones, of a few digits. -/
theorem ofFloat_takes (hx : Is x s b) :
    ofFloat x = b.shortest ∧ b.Takes (ofFloat x).value ∧ 0 < (ofFloat x).digits ∧
      (ofFloat x).digits ≤ 10 ^ 17 + 1 := by
  have hb := hx.isStandard
  have hfloat : ofFloat x = b.shortest := by
    rw [ofFloat, hx.ofBits, if_neg hb.pos.ne']
  obtain ⟨htakes, hdigits⟩ := Binary.shortest_takes hb
  rw [hfloat]
  refine ⟨rfl, htakes, Nat.pos_of_ne_zero fun hzero => ?_, hdigits⟩
  have hpositive := lt_of_takes hb htakes
  rw [Decimal.value, hzero, Nat.cast_zero, zero_mul] at hpositive
  exact absurd hpositive (not_lt_of_ge (Binary.two_zpow_pos _).le)

theorem numberOf_eq (hx : Is x s b) :
    numberOf x = (scaled? (written (ofFloat x)).1 (written (ofFloat x)).2).map fun y =>
      .real (if Decimal.isNegative x then -y else y) := by
  obtain ⟨-, htakes, hpos, hdigits⟩ := ofFloat_takes hx
  obtain ⟨hlow, hhigh⟩ := power_bounds hx.isStandard hx.exponent_le hpos (by omega) htakes
  have hmax : maxSignificand = 2 ^ 64 - 1 := by decide
  rw [numberOf, number?_layout,
    magnitude?_layout _ (by omega) hlow hhigh (length_digitList_le hdigits)]

theorem numberOf_number (hx : Is x s b) : ∃ y, numberOf x = some (.real y) ∧ IsReread x y := by
  have hb := hx.isStandard
  obtain ⟨hshortest, htakes, hpos, hdigits⟩ := ofFloat_takes hx
  obtain ⟨hn, hn', hshort⟩ := written_bounds hpos hdigits
  have hwritten := htakes
  rw [← written_value] at hwritten
  obtain ⟨y, q, hy⟩ := scaled?_close hb hx.exponent_le hn hn' hwritten fun h => by
    rw [← hshortest]
    exact hshort h
  have hnear := withSign_nearest hx.isNegative hy.nearest
  refine ⟨if Decimal.isNegative x then -y else y, by rw [numberOf_eq hx, hy.eq]; rfl,
    ?_, ?_, ?_, ?_⟩
  · exact hnear.isFinite
  · rw [hnear.isNegative, hx.isNegative]
  · -- the text is off by half a step, and the reader by a few roundings of it
    have hvalue := (ofFloat x).value_nonneg
    have htext := abs_sub_le hb htakes hvalue
    rw [← hx.size_eq] at htext
    have hclose := hy.close
    rw [written_value] at hclose
    refine (close_of_errors hvalue htext hclose (hnear.abs_sub_le hy.nonneg)).trans_eq ?_
    rw [underflow, show (-1073 : Int) = 2 + -1075 by norm_num, zpow_add₀ (by norm_num)]
    norm_num [roundoff]
  · -- one exact operation on two exact numbers
    intro hsmall hpower
    obtain ⟨z, hz, his⟩ := scaled?_exact hb hn hsmall hpower hwritten
    obtain rfl : y = z := by
      rw [hy.eq] at hz
      exact Option.some.inj hz
    exact (withSign_is hx.isNegative his).eq hx

theorem numberOf_isReread (hx : x.isFinite) : ∃ y, numberOf x = some (.real y) ∧ IsReread x y := by
  rcases isZero_or_is hx with ⟨s, hzero⟩ | ⟨s, h⟩
  · exact numberOf_zero hzero
  · exact numberOf_number h

end StatAlmanac.Json
