import Mathlib.Tactic.NormNum
import StatAlmanac.Json.Write
import StatAlmanac.Proofs.Json.Tokens

/-!
Written real numbers. A finite number stands in a text as a numeral of its shortest
digits, and the reader takes the digits and the power of ten off that numeral again.
-/

namespace StatAlmanac.Json

open Decimal (digitList zeros plainFrom plainBelow)

/-! ### The numeral of a decimal -/

def layout (isNegative : Bool) (d : Decimal) : Numeral :=
  let ds := digitList d.digits
  let point := (ds.length : Int) + d.exponent
  if d.digits = 0 then ⟨isNegative, ['0'], some ['0'], none⟩
  else if plainFrom ≤ point - 1 ∧ point - 1 < plainBelow then
    if point ≤ 0 then ⟨isNegative, ['0'], some (zeros (-point) ++ ds), none⟩
    else if (ds.length : Int) ≤ point then
      ⟨isNegative, ds ++ zeros (point - ds.length), some ['0'], none⟩
    else ⟨isNegative, ds.take point.toNat, some (ds.drop point.toNat), none⟩
  else
    ⟨isNegative, ds.take 1, if ds.length = 1 then none else some (ds.drop 1),
      some (point - 1 < 0, digitList (point - 1).natAbs)⟩

/-- The significand and the power of ten of a written decimal: those of the decimal, with all places
up to one behind the point where it is written without an exponent. -/
def written (d : Decimal) : Nat × Int :=
  let point := ((digitList d.digits).length : Int) + d.exponent
  if d.digits = 0 then (0, -1)
  else if point ≤ plainBelow ∧ 0 ≤ d.exponent then (d.digits * 10 ^ (d.exponent.toNat + 1), -1)
  else (d.digits, d.exponent)

variable {d : Decimal} {isNegative : Bool}

theorem scientific_eq (ds : List Char) (lead : Int) (hds : ds ≠ []) :
    Decimal.scientific ds lead =
      ds.take 1 ++ ((if ds.length = 1 then [] else '.' :: ds.drop 1) ++
        'e' :: (if lead < 0 then '-' else '+') :: digitList lead.natAbs) := by
  cases ds with
  | nil => exact absurd rfl hds
  | cons c rest =>
      cases rest with
      | nil => rfl
      | cons e rest => simp [Decimal.scientific]

theorem text_layout (isNegative : Bool) (d : Decimal) :
    (layout isNegative d).text = (if isNegative then ['-'] else []) ++ d.numeral := by
  simp only [layout, Decimal.numeral]
  split
  · rfl
  · split
    · rw [Decimal.positional]
      split
      · simp [Numeral.text, Numeral.fractionText, Numeral.exponentText]
      · split <;> simp [Numeral.text, Numeral.fractionText, Numeral.exponentText]
    · rw [scientific_eq (digitList d.digits) _ Nat.toDigits_ne_nil]
      by_cases hlen : (digitList d.digits).length = 1 <;>
        simp [Numeral.text, Numeral.fractionText, Numeral.exponentText, hlen]

theorem isDigit_of_mem_zeros {n : Int} {c : Char} (h : c ∈ zeros n) : isDigit c := by
  obtain rfl := List.eq_of_mem_replicate h
  decide

theorem isSpelled_plain {whole fraction : List Char} (hwhole : isWhole whole)
    (hdigits : ∀ c ∈ whole, isDigit c) (hne : fraction ≠ [])
    (hdigits' : ∀ c ∈ fraction, isDigit c) :
    (⟨isNegative, whole, some fraction, none⟩ : Numeral).IsSpelled := by
  refine ⟨hwhole, hdigits, ?_, by simp⟩
  rintro _ ⟨⟩
  exact ⟨hne, hdigits'⟩

theorem isSpelled_layout (isNegative : Bool) (d : Decimal) : (layout isNegative d).IsSpelled := by
  have hdigit : ∀ c ∈ digitList d.digits, isDigit c := fun c => isDigit_of_mem_toDigits
  have hzero : ∀ c ∈ ['0'], isDigit c := by decide
  simp only [layout]
  split
  · exact isSpelled_plain (by decide) hzero (by simp) hzero
  · rename_i hne
    obtain ⟨c, cs, hds, hc⟩ := toDigits_eq_cons (Nat.pos_of_ne_zero hne)
    rw [show digitList d.digits = c :: cs from hds] at *
    obtain ⟨point, hpoint⟩ : ∃ p, p = ((c :: cs).length : Int) + d.exponent := ⟨_, rfl⟩
    rw [← hpoint]
    split
    · split
      · exact isSpelled_plain (by decide) hzero (by simp) fun e he =>
          (List.mem_append.1 he).elim isDigit_of_mem_zeros (hdigit e)
      · split
        · exact isSpelled_plain (by simp [isWhole, hc])
            (fun e he => (List.mem_append.1 he).elim (hdigit e) isDigit_of_mem_zeros)
            (by simp) hzero
        · -- the point stands among the digits
          obtain ⟨k, hk⟩ : ∃ k, point.toNat = k + 1 := ⟨point.toNat - 1, by omega⟩
          rw [hk]
          refine isSpelled_plain (by simp [isWhole, hc])
            (fun e he => hdigit e (List.mem_of_mem_take he))
            (fun hnil => ?_) fun e he => hdigit e (List.mem_of_mem_drop he)
          have := List.drop_eq_nil_iff.1 hnil
          omega
    · refine ⟨by simp [isWhole], fun e he => hdigit e (List.mem_of_mem_take he), ?_, ?_⟩
      · intro ds hmem
        dsimp only at hmem
        split at hmem
        · cases hmem
        · rename_i hlen
          cases hmem
          refine ⟨fun hnil => hlen ?_, fun e he => hdigit e (List.mem_of_mem_drop he)⟩
          have := List.drop_eq_nil_iff.1 hnil
          simp only [List.length_cons] at this ⊢
          omega
      · rintro _ ⟨⟩
        exact ⟨Nat.toDigits_ne_nil, fun e he => isDigit_of_mem_toDigits he⟩

/-! ### What the reader takes off a numeral -/

theorem le_foldl_digits (s : Nat) (ds : List Char) :
    s ≤ ds.foldl (fun n d => 10 * n + digitValue d) s := by
  induction ds generalizing s with
  | nil => exact Nat.le_refl s
  | cons d ds ih =>
      refine Nat.le_trans ?_ (ih _)
      show s ≤ 10 * s + digitValue d
      omega

theorem absorb_of_le {s : Nat} {ds : List Char}
    (h : ds.foldl (fun n d => 10 * n + digitValue d) s ≤ maxSignificand) :
    absorb s ds = (ds.foldl (fun n d => 10 * n + digitValue d) s, ds.length) := by
  induction ds generalizing s with
  | nil => rfl
  | cons d ds ih =>
      have hnext : s * 10 + digitValue d = 10 * s + digitValue d := by omega
      rw [List.foldl_cons] at h ⊢
      rw [absorb, hnext, if_pos (Nat.le_trans (le_foldl_digits _ ds) h), ih h]
      rfl

theorem parts_of_le {n : Numeral}
    (h : digitsValue (n.whole ++ n.fraction.getD []) ≤ maxSignificand) :
    n.parts =
      (digitsValue (n.whole ++ n.fraction.getD []), -((n.fraction.getD []).length : Int)) := by
  rw [digitsValue, List.foldl_append] at h ⊢
  rw [Numeral.parts, absorb_of_le (Nat.le_trans (le_foldl_digits _ _) h)]
  dsimp only
  rw [absorb_of_le h, Prod.mk.injEq]
  exact ⟨rfl, by omega⟩

theorem foldl_zeros (s k : Nat) :
    (List.replicate k '0').foldl (fun n d => 10 * n + digitValue d) s = s * 10 ^ k := by
  induction k generalizing s with
  | zero => simp
  | succ k ih =>
      have hzero : digitValue '0' = 0 := by decide
      rw [List.replicate_succ, List.foldl_cons, hzero, ih, Nat.pow_succ]
      simp only [Nat.add_zero, Nat.mul_comm 10 s, Nat.mul_assoc, Nat.mul_comm 10]

theorem digitsValue_zeros_append (n : Int) (ds : List Char) :
    digitsValue (zeros n ++ ds) = digitsValue ds := by
  rw [digitsValue, List.foldl_append, zeros, foldl_zeros, Nat.zero_mul, digitsValue]

theorem digitsValue_append_zeros (ds : List Char) (k : Nat) :
    digitsValue (ds ++ List.replicate k '0') = digitsValue ds * 10 ^ k := by
  rw [digitsValue, List.foldl_append, foldl_zeros, digitsValue]

theorem lt_tenPow_length (n : Nat) : n < 10 ^ (digitList n).length :=
  (Nat.length_toDigits_le_iff (by decide) Nat.length_toDigits_pos).1 (Nat.le_refl _)

/-- With no more than sixteen digits before the point, one place behind it fits as well. -/
theorem whole_le {k : Nat} (h : (digitList d.digits).length + k ≤ 16) :
    d.digits * 10 ^ (k + 1) ≤ maxSignificand := by
  have hlt : d.digits * 10 ^ (k + 1) ≤ 10 ^ (digitList d.digits).length * 10 ^ (k + 1) :=
    Nat.mul_le_mul_right _ (Nat.le_of_lt (lt_tenPow_length d.digits))
  rw [← Nat.pow_add] at hlt
  refine Nat.le_trans hlt (Nat.le_trans (Nat.pow_le_pow_right (by decide) ?_)
    (by decide : 10 ^ 17 ≤ maxSignificand))
  omega

/-- Without an exponent the power is the number of places behind the point. -/
theorem magnitude?_plain {whole fraction : List Char} {v : Nat}
    (hv : digitsValue (whole ++ fraction) = v) (hfit : v ≤ maxSignificand) :
    (⟨isNegative, whole, some fraction, none⟩ : Numeral).magnitude? =
      scaled? v (-(fraction.length : Int)) := by
  rw [Numeral.magnitude?, parts_of_le (hv.symm ▸ hfit)]
  show scaled? (digitsValue (whole ++ fraction)) _ = _
  rw [hv]
  rfl

theorem magnitude?_exponent {whole : List Char} {fraction : Option (List Char)} {v : Nat}
    {lead : Int}
    (hv : digitsValue (whole ++ fraction.getD []) = v) (hfit : v ≤ maxSignificand)
    (hlead : lead.natAbs ≤ maxExponent) :
    (⟨isNegative, whole, fraction, some (lead < 0, digitList lead.natAbs)⟩ : Numeral).magnitude? =
      scaled? v (lead - ((fraction.getD []).length : Int)) := by
  have hvalue : digitsValue (digitList lead.natAbs) = lead.natAbs := digitsValue_toDigits _
  rw [Numeral.magnitude?, parts_of_le (hv.symm ▸ hfit)]
  show (if maxExponent < digitsValue (digitList lead.natAbs) then _ else
    scaled? (digitsValue (whole ++ fraction.getD [])) (if decide (lead < 0) = true then
      -((fraction.getD []).length : Int) - (digitsValue (digitList lead.natAbs) : Nat)
      else -((fraction.getD []).length : Int) + (digitsValue (digitList lead.natAbs) : Nat))) = _
  rw [hvalue, if_neg (Nat.not_lt.2 hlead), hv]
  congr 1
  simp only [decide_eq_true_eq]
  split <;> omega

/-- Zeros between the point and the digits count as places. -/
theorem magnitude?_front (hdigits : d.digits ≤ maxSignificand)
    (hpoint : ((digitList d.digits).length : Int) + d.exponent ≤ 0) :
    (⟨isNegative, ['0'],
      some (zeros (-((digitList d.digits).length + d.exponent)) ++ digitList d.digits),
      none⟩ : Numeral).magnitude? = scaled? d.digits d.exponent := by
  obtain ⟨k, hk⟩ :
      ∃ k : Nat, k = (-(((digitList d.digits).length : Int) + d.exponent)).toNat := ⟨_, rfl⟩
  have hvalue : digitsValue (['0'] ++ (List.replicate k '0' ++ digitList d.digits)) = d.digits := by
    rw [List.singleton_append, ← List.cons_append, ← List.replicate_succ]
    exact (digitsValue_zeros_append ((k + 1 : Nat) : Int) _).trans (digitsValue_toDigits d.digits)
  rw [zeros, ← hk, magnitude?_plain hvalue hdigits]
  congr 1
  simp only [List.length_append, List.length_replicate]
  omega

/-- Zeros between the digits and the point belong to the significand, and so does the one behind the
point. -/
theorem magnitude?_padded (hexponent : 0 ≤ d.exponent)
    (hpoint : ((digitList d.digits).length : Int) + d.exponent ≤ 16) :
    (⟨isNegative, digitList d.digits ++ zeros d.exponent, some ['0'], none⟩ : Numeral).magnitude? =
      scaled? (d.digits * 10 ^ (d.exponent.toNat + 1)) (-1) := by
  have hvalue : digitsValue (digitList d.digits ++ zeros d.exponent ++ ['0']) =
      d.digits * 10 ^ (d.exponent.toNat + 1) := by
    rw [List.append_assoc, zeros, ← List.replicate_succ', digitsValue_append_zeros]
    exact congrArg (· * _) (digitsValue_toDigits d.digits)
  rw [magnitude?_plain hvalue (whole_le (by omega))]
  rfl

theorem magnitude?_among (hdigits : d.digits ≤ maxSignificand) (hexponent : d.exponent < 0)
    (hpoint : 0 < ((digitList d.digits).length : Int) + d.exponent) :
    (⟨isNegative, (digitList d.digits).take ((digitList d.digits).length + d.exponent).toNat,
      some ((digitList d.digits).drop ((digitList d.digits).length + d.exponent).toNat), none⟩ :
      Numeral).magnitude? = scaled? d.digits d.exponent := by
  rw [magnitude?_plain (v := d.digits) ?_ hdigits]
  · congr 1
    simp only [List.length_drop]
    omega
  · rw [List.take_append_drop]
    exact digitsValue_toDigits d.digits

theorem magnitude?_lead (hdigits : d.digits ≤ maxSignificand) {lead : Int}
    (hlead : lead = (digitList d.digits).length + d.exponent - 1)
    (hfit : lead.natAbs ≤ maxExponent) :
    (⟨isNegative, (digitList d.digits).take 1,
      if (digitList d.digits).length = 1 then none else some ((digitList d.digits).drop 1),
      some (lead < 0, digitList lead.natAbs)⟩ : Numeral).magnitude? =
      scaled? d.digits d.exponent := by
  have hpos : 0 < (digitList d.digits).length := Nat.length_toDigits_pos
  have hfraction : (if (digitList d.digits).length = 1 then none
      else some ((digitList d.digits).drop 1)).getD [] = (digitList d.digits).drop 1 := by
    split
    · rename_i hone
      exact (List.drop_eq_nil_of_le (Nat.le_of_eq hone)).symm
    · rfl
  rw [magnitude?_exponent (v := d.digits) ?_ hdigits hfit]
  · rw [hfraction, List.length_drop]
    congr 1
    omega
  · rw [hfraction, List.take_append_drop]
    exact digitsValue_toDigits d.digits

/-- The reader takes off a written decimal what was written. -/
theorem magnitude?_layout (isNegative : Bool) (hdigits : d.digits ≤ maxSignificand)
    (hlow : -616 ≤ d.exponent) (hhigh : d.exponent ≤ 308)
    (hlen : (digitList d.digits).length ≤ 20) :
    (layout isNegative d).magnitude? = scaled? (written d).1 (written d).2 := by
  have hpos : 0 < (digitList d.digits).length := Nat.length_toDigits_pos
  have hbelow : plainBelow = 16 := rfl
  have hfrom : plainFrom = -5 := rfl
  simp only [layout, written]
  by_cases hzero : d.digits = 0
  · rw [if_pos hzero, if_pos hzero]
    rfl
  · rw [if_neg hzero, if_neg hzero]
    by_cases hplain : plainFrom ≤ ((digitList d.digits).length : Int) + d.exponent - 1 ∧
        ((digitList d.digits).length : Int) + d.exponent - 1 < plainBelow
    · rw [if_pos hplain]
      by_cases hfront : ((digitList d.digits).length : Int) + d.exponent ≤ 0
      · rw [if_pos hfront, if_neg (by omega)]
        exact magnitude?_front hdigits hfront
      · rw [if_neg hfront]
        by_cases hwhole : ((digitList d.digits).length : Int) ≤
          (digitList d.digits).length + d.exponent
        · have hpad : ((digitList d.digits).length : Int) + d.exponent -
              (digitList d.digits).length = d.exponent := by
            omega
          rw [if_pos hwhole, if_pos (by omega), hpad]
          exact magnitude?_padded (by omega) (by omega)
        · rw [if_neg hwhole, if_neg (by omega)]
          exact magnitude?_among hdigits (by omega) (by omega)
    · have hexponent :
          ¬(((digitList d.digits).length : Int) + d.exponent ≤ plainBelow ∧ 0 ≤ d.exponent) := by
        omega
      rw [if_neg hplain, if_neg hexponent]
      refine magnitude?_lead hdigits rfl ?_
      show _ ≤ 0x7FFFFFFF
      omega

/-! ### What a written number is read as -/

def numberOf (x : Float) : Option Number :=
  (layout (Decimal.isNegative x) (Decimal.ofFloat x)).number?

/-- There is always a point or an exponent, so no integer is read. -/
theorem number?_layout (isNegative : Bool) (d : Decimal) :
    (layout isNegative d).number? =
      (layout isNegative d).magnitude?.map fun x => .real (if isNegative then -x else x) := by
  have hreal : (layout isNegative d).isNegative = isNegative ∧
      ((layout isNegative d).fraction.isNone && (layout isNegative d).exponent.isNone) = false := by
    simp only [layout]
    repeat' split
    all_goals simp
  rw [Numeral.number?, hreal.1, hreal.2]
  rfl

theorem toNat_lt_of_isDigit {c : Char} (h : isDigit c) : c.toNat < 0x80 := by
  simp only [isDigit, Bool.and_eq_true, decide_eq_true_eq] at h
  have hle : c.toNat ≤ '9'.toNat := h.2
  exact Nat.lt_of_le_of_lt hle (by decide)

theorem spell_text {n : Numeral} (h : n.IsSpelled) : spell n.text = n.text := by
  apply spell_of_ascii
  intro c hc
  simp only [Numeral.text, List.mem_append] at hc
  rcases hc with hsign | hwhole | hfraction | hexponent
  · have : c = '-' := by
      split at hsign
      · simpa using hsign
      · cases hsign
    rw [this]
    decide
  · exact toNat_lt_of_isDigit (h.whole c hwhole)
  · rw [Numeral.fractionText] at hfraction
    cases hf : n.fraction with
    | none => simp [hf] at hfraction
    | some ds =>
        rw [hf] at hfraction
        rcases List.mem_cons.1 hfraction with rfl | hmem
        · decide
        · exact toNat_lt_of_isDigit ((h.fraction ds hf).2 c hmem)
  · rw [Numeral.exponentText] at hexponent
    cases he : n.exponent with
    | none => simp [he] at hexponent
    | some e =>
        rw [he] at hexponent
        rcases List.mem_cons.1 hexponent with rfl | hmem
        · decide
        · rcases List.mem_cons.1 hmem with rfl | hmem
          · split <;> decide
          · exact toNat_lt_of_isDigit ((h.exponent e he).2 c hmem)

theorem tokensOf_real {x : Float} (hx : x.isFinite) {rest : List Char} (hrest : EndsNumber rest) :
    tokensOf (spell (writeReal x) ++ rest) = .number (numberOf x) :: tokensOf rest := by
  have htext : writeReal x = (layout (Decimal.isNegative x) (Decimal.ofFloat x)).text := by
    rw [writeReal, if_pos hx, text_layout]
    rfl
  have hspelled := isSpelled_layout (Decimal.isNegative x) (Decimal.ofFloat x)
  rw [htext, spell_text hspelled, tokensOf_numeral hspelled hrest]
  rfl

end StatAlmanac.Json
