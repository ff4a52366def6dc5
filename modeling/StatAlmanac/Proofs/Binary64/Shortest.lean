import StatAlmanac.Proofs.Binary64.Arithmetic

/-!
The shortest decimal of a binary64 number rounds to it again and has at most
seventeen digits.
-/

namespace StatAlmanac.Decimal

/-! ### Magnitudes -/

theorem toDigits_bounds {n : Nat} (hn : 0 < n) :
    10 ^ ((Nat.toDigits 10 n).length - 1) ≤ n ∧ n < 10 ^ (Nat.toDigits 10 n).length := by
  have hpos : 0 < (Nat.toDigits 10 n).length := Nat.length_toDigits_pos
  constructor
  · by_contra hlt
    by_cases hone : (Nat.toDigits 10 n).length = 1
    · rw [hone] at hlt
      omega
    · have := (Nat.length_toDigits_le_iff (b := 10) (n := n)
        (k := (Nat.toDigits 10 n).length - 1) (by norm_num) (by omega)).2 (by omega)
      omega
  · exact (Nat.length_toDigits_le_iff (by norm_num) hpos).1 le_rfl

namespace Binary

variable {x : Binary}

theorem value_eq_div (x : Binary) :
    x.value = (x.significand * pow2 (up x.exponent) : Nat) / (pow2 (down x.exponent) : Nat) := by
  rw [value, zpow_eq 2 (by norm_num), ← mul_div_assoc]
  push_cast [pow2, Nat.pow_eq]
  rfl

theorem value_mul_lt {m n : Nat}
    (h : x.significand * pow2 (up x.exponent) * m < n * pow2 (down x.exponent)) :
    x.value * m < n := by
  have hpow : (0 : ℚ) < (pow2 (down x.exponent) : Nat) := by
    rw [pow2, Nat.pow_eq]
    positivity
  rw [value_eq_div, div_mul_eq_mul_div, div_lt_iff₀ hpow]
  exact_mod_cast h

theorem quotient_bounds {a b : Nat} (hb : 0 < b) (hle : b ≤ a) :
    (10 : ℚ) ^ (((Nat.toDigits 10 (a / b)).length : Int) - 1) ≤ a / b ∧
      (a / b : ℚ) ≤ (10 : ℚ) ^ ((Nat.toDigits 10 (a / b)).length : Int) := by
  obtain ⟨hlow, hhigh⟩ := toDigits_bounds (Nat.div_pos hle hb)
  have hb' : (0 : ℚ) < b := by exact_mod_cast hb
  have hlen : 0 < (Nat.toDigits 10 (a / b)).length := Nat.length_toDigits_pos
  obtain ⟨c, hc⟩ : ∃ c, (Nat.toDigits 10 (a / b)).length = c + 1 :=
    ⟨(Nat.toDigits 10 (a / b)).length - 1, by omega⟩
  rw [hc] at hlow hhigh ⊢
  rw [Nat.add_sub_cancel, Nat.le_div_iff_mul_le hb] at hlow
  rw [Nat.div_lt_iff_lt_mul hb] at hhigh
  constructor
  · rw [le_div_iff₀ hb', Nat.cast_succ, add_sub_cancel_right, zpow_natCast]
    exact_mod_cast hlow
  · rw [div_le_iff₀ hb', zpow_natCast]
    exact_mod_cast hhigh.le

/-- The magnitude is the number of the leading digit's place. -/
theorem tenPow_pred_le_value (hpos : 0 < x.significand) :
    (10 : ℚ) ^ (x.magnitude - 1) ≤ x.value ∧ x.value ≤ (10 : ℚ) ^ x.magnitude := by
  obtain ⟨above, habove⟩ : ∃ a, a = x.significand * pow2 (up x.exponent) := ⟨_, rfl⟩
  obtain ⟨below, hbelow⟩ : ∃ b, b = pow2 (down x.exponent) := ⟨_, rfl⟩
  have ha : 0 < above := by
    rw [habove, pow2, Nat.pow_eq]
    positivity
  have hb : 0 < below := by
    rw [hbelow, pow2, Nat.pow_eq]
    positivity
  have hvalue : x.value = above / below := by rw [value_eq_div, habove, hbelow]
  have hmagnitude : x.magnitude =
      if below ≤ above then ((Nat.toDigits 10 (above / below)).length : Int)
      else 1 - (Nat.toDigits 10 (below / above)).length := by
    rw [magnitude, habove, hbelow]
  rw [hvalue, hmagnitude]
  split
  · exact quotient_bounds hb ‹_›
  · -- the inverse has its digits before the point
    obtain ⟨hlow, hhigh⟩ := quotient_bounds ha (Nat.le_of_not_le ‹_›)
    obtain ⟨c, hc⟩ : ∃ c : Int, c = (Nat.toDigits 10 (below / above)).length := ⟨_, rfl⟩
    rw [← hc] at hlow hhigh ⊢
    have hquotient : (0 : ℚ) < below / above :=
      div_pos (by exact_mod_cast hb) (by exact_mod_cast ha)
    rw [show 1 - c - 1 = -c by omega, show 1 - c = -(c - 1) by omega, zpow_neg, zpow_neg, ← inv_div]
    exact ⟨inv_anti₀ hquotient hhigh, inv_anti₀ (zpow_pos (by norm_num) _) hlow⟩

/-! ### Neighbours on a grid -/

def floorOn (x : Binary) (e : Int) : Nat :=
  x.significand * pow2 (up x.exponent) * pow10 (down e) / (pow2 (down x.exponent) * pow10 (up e))

theorem floorOn_le (x : Binary) (e : Int) :
    x.floorOn e * (10 : ℚ) ^ e ≤ x.value ∧ x.value < (x.floorOn e + 1) * (10 : ℚ) ^ e := by
  obtain ⟨above, habove⟩ :
      ∃ a, a = x.significand * pow2 (up x.exponent) * pow10 (down e) := ⟨_, rfl⟩
  obtain ⟨below, hbelow⟩ : ∃ b, b = pow2 (down x.exponent) * pow10 (up e) := ⟨_, rfl⟩
  have hb : 0 < below := by
    simp only [hbelow, pow2, pow10, Nat.pow_eq]
    positivity
  have hb' : (0 : ℚ) < below := by exact_mod_cast hb
  have hunit : (0 : ℚ) < (10 : ℚ) ^ e := zpow_pos (by norm_num) e
  have hvalue : x.value / (10 : ℚ) ^ e = above / below := by
    rw [value_eq_div, zpow_eq 10 (by norm_num) e, habove, hbelow]
    push_cast [pow2, pow10, Nat.pow_eq]
    field_simp
  rw [← le_div_iff₀ hunit, ← div_lt_iff₀ hunit, hvalue, le_div_iff₀ hb', div_lt_iff₀ hb', floorOn,
    ← habove, ← hbelow]
  constructor
  · exact_mod_cast Nat.div_mul_le_self above below
  · exact_mod_cast (Nat.div_lt_iff_lt_mul hb).1 (Nat.lt_succ_self (above / below))

theorem onGrid?_eq (x : Binary) (e : Int) : x.onGrid? e =
    match x.covers ⟨x.floorOn e, e⟩, x.covers ⟨x.floorOn e + 1, e⟩ with
    | true, false => some ⟨x.floorOn e, e⟩
    | false, true => some ⟨x.floorOn e + 1, e⟩
    | false, false => none
    | true, true =>
        match compare (2 * (x.significand * pow2 (up x.exponent) * pow10 (down e)))
          ((2 * x.floorOn e + 1) * (pow2 (down x.exponent) * pow10 (up e))) with
        | .lt => some ⟨x.floorOn e, e⟩
        | .gt => some ⟨x.floorOn e + 1, e⟩
        | .eq =>
            some (if x.floorOn e % 2 == 0 then ⟨x.floorOn e, e⟩ else ⟨x.floorOn e + 1, e⟩) := rfl

theorem covers_of_onGrid? {e : Int} {d : Decimal} (h : x.onGrid? e = some d) :
    x.covers d = true ∧ (d = ⟨x.floorOn e, e⟩ ∨ d = ⟨x.floorOn e + 1, e⟩) := by
  rw [onGrid?_eq] at h
  split at h
  · cases h
    exact ⟨‹_›, .inl rfl⟩
  · cases h
    exact ⟨‹_›, .inr rfl⟩
  · cases h
  · split at h
    · cases h
      exact ⟨‹_›, .inl rfl⟩
    · cases h
      exact ⟨‹_›, .inr rfl⟩
    · split at h <;> cases h
      · exact ⟨‹_›, .inl rfl⟩
      · exact ⟨‹_›, .inr rfl⟩

theorem onGrid?_isSome {e : Int}
    (h : x.covers ⟨x.floorOn e, e⟩ = true ∨ x.covers ⟨x.floorOn e + 1, e⟩ = true) :
    (x.onGrid? e).isSome = true := by
  rw [onGrid?_eq]
  split
  · rfl
  · rfl
  · simp_all
  · split <;> rfl

/-- On a grid that is fine enough, the nearer of the two neighbours rounds to `x`. -/
theorem onGrid?_of_fine {e : Int} (hx : x.IsStandard)
    (h : (10 : ℚ) ^ e < (if x.narrow then 1 / 2 else 1) * (2 : ℚ) ^ x.exponent) :
    (x.onGrid? e).isSome = true := by
  obtain ⟨hfloor, hceil⟩ := floorOn_le x e
  have hunit := two_zpow_pos (x.exponent - 2)
  have hfour := Binary64.two_zpow_eq x.exponent
  have hlow : x.low = x.value - (if x.narrow then 1 else 2) * (2 : ℚ) ^ (x.exponent - 2) := by
    rw [low, Binary64.value_eq, sub_mul]
  have hhigh : x.high = x.value + 2 * (2 : ℚ) ^ (x.exponent - 2) := by
    rw [high, Binary64.value_eq, add_mul]
  have hwidth : (10 : ℚ) ^ e < 2 * ((if x.narrow then 1 else 2) * (2 : ℚ) ^ (x.exponent - 2)) := by
    rw [hfour] at h
    by_cases hn : x.narrow
    · rw [if_pos hn] at h ⊢
      linarith
    · rw [if_neg hn] at h ⊢
      linarith
  have hsmall : (if x.narrow then 1 else 2 : ℚ) * (2 : ℚ) ^ (x.exponent - 2) ≤
      2 * (2 : ℚ) ^ (x.exponent - 2) := by
    split <;> linarith
  apply onGrid?_isSome
  rw [covers_iff hx.pos, covers_iff hx.pos, Decimal.value, Decimal.value]
  rcases le_total (x.value - x.floorOn e * (10 : ℚ) ^ e)
    ((x.floorOn e + 1) * (10 : ℚ) ^ e - x.value) with hnear | hnear
  · left
    apply takes_of_inside <;> dsimp only
    · rw [hlow]
      linarith
    · rw [hhigh]
      linarith
  · right
    apply takes_of_inside <;> push_cast
    · rw [hlow]
      linarith
    · rw [hhigh]
      linarith

theorem onGrid?_seventeen (hx : x.IsStandard) :
    (x.onGrid? (x.magnitude - (16 + 1 : Nat))).isSome = true := by
  apply onGrid?_of_fine hx
  have hunit := two_zpow_pos x.exponent
  have hlt : (x.significand : ℚ) < 2 ^ 53 := by exact_mod_cast hx.lt
  have hgrid : (10 : ℚ) ^ (x.magnitude - (16 + 1 : Nat)) * 10 ^ 16 ≤
      x.significand * (2 : ℚ) ^ x.exponent := by
    refine le_trans (le_of_eq ?_) (tenPow_pred_le_value hx.pos).1
    rw [← zpow_natCast, ← zpow_add₀ (by norm_num)]
    congr 1
    push_cast
    ring
  have hsmall : (x.significand : ℚ) * (2 : ℚ) ^ x.exponent <
      (if x.narrow then 1 / 2 else 1) * (2 : ℚ) ^ x.exponent * 10 ^ 16 := by
    rw [mul_right_comm]
    apply mul_lt_mul_of_pos_right _ hunit
    by_cases hn : x.narrow
    · rw [if_pos hn, (hx.narrow_iff.1 hn).1]
      norm_num
    · rw [if_neg hn]
      linarith
  exact lt_of_mul_lt_mul_right (hgrid.trans_lt hsmall) (by norm_num)

theorem strip_value (n : Nat) (d : Decimal) :
    (strip n d).value = d.value ∧ (strip n d).digits ≤ d.digits := by
  induction n generalizing d with
  | zero => exact ⟨rfl, le_rfl⟩
  | succ n ih =>
      rw [strip]
      split
      · rename_i h
        obtain ⟨hvalue, hle⟩ := ih ⟨d.digits / 10, d.exponent + 1⟩
        simp only [Bool.and_eq_true, beq_iff_eq] at h
        refine ⟨hvalue.trans ?_, hle.trans (Nat.div_le_self ..)⟩
        have hdigits : (d.digits : ℚ) = (d.digits / 10 : Nat) * 10 := by
          exact_mod_cast (Nat.div_mul_cancel (Nat.dvd_of_mod_eq_zero h.1)).symm
        rw [Decimal.value, Decimal.value, hdigits, zpow_add₀ (by norm_num), zpow_one]
        dsimp only
        ring
      · exact ⟨rfl, le_rfl⟩

theorem floorOn_lt (hpos : 0 < x.significand) {n : Nat} :
    x.floorOn (x.magnitude - (n + 1 : Nat)) ≤ 10 ^ (n + 1) := by
  have hunit : (0 : ℚ) < (10 : ℚ) ^ (x.magnitude - (n + 1 : Nat)) := zpow_pos (by norm_num) _
  have h := (floorOn_le x (x.magnitude - (n + 1 : Nat))).1.trans (tenPow_pred_le_value hpos).2
  rw [← le_div_iff₀ hunit, ← zpow_sub₀ (by norm_num), sub_sub_cancel, zpow_natCast] at h
  exact_mod_cast h

/-- The shortest decimal rounds to `x`, and its digits fit into sixty-four bits. -/
theorem shortest_takes (hx : x.IsStandard) :
    x.Takes x.shortest.value ∧ x.shortest.digits ≤ 10 ^ 17 + 1 := by
  obtain ⟨d, hd⟩ : ∃ d, ((List.range 17).findSome? fun (n : Nat) =>
      x.onGrid? (x.magnitude - (n + 1 : Nat))) = some d := by
    rw [← Option.isSome_iff_exists, List.isSome_findSome?, List.any_eq_true]
    exact ⟨16, by simp, onGrid?_seventeen hx⟩
  obtain ⟨n, hn, hgrid⟩ := List.exists_of_findSome?_eq_some hd
  obtain ⟨hcovers, hdigits⟩ := covers_of_onGrid? hgrid
  obtain ⟨hvalue, hle⟩ := strip_value 17 d
  have hfloor := floorOn_lt hx.pos (n := n)
  have hpow : 10 ^ (n + 1) ≤ 10 ^ 17 :=
    Nat.pow_le_pow_right (by norm_num) (List.mem_range.1 hn)
  rw [shortest, hd, Option.getD_some]
  constructor
  · rw [hvalue]
    exact (covers_iff hx.pos).1 hcovers
  · rcases hdigits with rfl | rfl <;> dsimp only at hle <;> omega

end Binary

end StatAlmanac.Decimal
