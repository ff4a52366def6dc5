import Mathlib.Data.Nat.Bitwise
import StatAlmanac.Proofs.Text.Upper

/-!
What the upper case of a letter starts with. It is a letter again, and upper case
leaves it as it is. This is a fact about the tables as a whole: their code points are
taken as the bits of one number, and the numbers show at once that one class lies
within another or apart from it.
-/

namespace StatAlmanac.Text

variable {c : Char} {n m : Nat}

/-! ### Code points as bits -/

/-- The number whose bits are the given code points. -/
def bits (codes : List Nat) : Nat := codes.foldr (fun n more => 1 <<< n ||| more) 0

theorem testBit_bits {codes : List Nat} : (bits codes).testBit n ↔ n ∈ codes := by
  induction codes with
  | nil => simp [bits]
  | cons m codes ih =>
      rw [bits, List.foldr_cons, Nat.testBit_or, Nat.one_shiftLeft, Nat.testBit_two_pow,
        Bool.or_eq_true, decide_eq_true_iff, List.mem_cons, eq_comm]
      exact or_congr_right ih

/-- The number whose bits are a class. Intervals behind count from the start of the first
one only. -/
def Ranges.bits : Ranges → Nat
  | [] => 0
  | (first, last) :: rest =>
    (((1 <<< (last + 1 - first)) - 1) ||| (Ranges.bits rest >>> first)) <<< first

theorem Ranges.testBit_bits (r : Ranges) (n : Nat) : r.bits.testBit n = r.has n := by
  induction r with
  | nil => exact Nat.zero_testBit n
  | cons i r ih =>
      obtain ⟨first, last⟩ := i
      rw [bits, has, Nat.testBit_shiftLeft, Nat.testBit_or, Nat.testBit_shiftRight,
        Nat.one_shiftLeft, Nat.testBit_two_pow_sub_one]
      by_cases hfirst : n < first
      · simp [hfirst]
      · have hle := Nat.not_lt.1 hfirst
        have hlast : n - first < last + 1 - first ↔ n ≤ last := by omega
        simp [hfirst, hle, hlast, ih]

/-! ### Small letters and capitals -/

/-- The code points of a row, counted from `start` instead of its first one. -/
def rowCodes (row : Nat × Nat × Nat × Int) (start : Nat) : List Nat :=
  List.range' start ((row.2.1 - row.1) / row.2.2.1 + 1) row.2.2.1

def smallCodes : List Nat :=
  upperExpansions.map (·.1) ++ upperRows.flatMap fun row => rowCodes row row.1

def capitalCodes : List Nat :=
  upperExpansions.filterMap (·.2.head?) ++
    upperRows.flatMap fun row => rowCodes row ((row.1 : Int) + row.2.2.2).toNat

set_option maxRecDepth 10000 in
theorem bits_smallCodes_and : bits smallCodes &&& bits capitalCodes = 0 := by decide

set_option maxRecDepth 10000 in
theorem bits_capitalCodes_and :
    bits capitalCodes &&& letterRanges.bits = bits capitalCodes := by decide

theorem mem_codes_of_partner? (h : upperRows.partner? n = some m) :
    n ∈ smallCodes ∧ m ∈ capitalCodes := by
  obtain ⟨row, hrow, hfirst, hlast, hstep, rfl⟩ := CaseRows.exists_row h
  have hclear := List.all_eq_true.1 isClear_upperRows row hrow
  simp only [isClear, Bool.and_eq_true, decide_eq_true_eq] at hclear
  have hplace : n = row.1 + row.2.2.1 * ((n - row.1) / row.2.2.1) := by
    rw [Nat.mul_div_cancel' (Nat.dvd_of_mod_eq_zero hstep)]
    omega
  have hin : (n - row.1) / row.2.2.1 < (row.2.1 - row.1) / row.2.2.1 + 1 :=
    Nat.lt_succ_of_le (Nat.div_le_div_right (Nat.sub_le_sub_right hlast _))
  constructor
  · refine List.mem_append_right _ (List.mem_flatMap.2 ⟨row, hrow, ?_⟩)
    exact List.mem_range'.2 ⟨_, hin, hplace⟩
  · refine List.mem_append_right _ (List.mem_flatMap.2 ⟨row, hrow, ?_⟩)
    exact List.mem_range'.2 ⟨_, hin, by omega⟩

theorem mem_codes_of_lookup {ns : List Nat} (h : upperExpansions.lookup n = some ns) :
    n ∈ smallCodes ∧ ∃ m more, ns = m :: more ∧ m ∈ capitalCodes ∧ isClear m m := by
  have hmem : (n, ns) ∈ upperExpansions := by
    obtain ⟨l, l', hsplit, -⟩ := List.lookup_eq_some_iff.1 h
    simp [hsplit]
  obtain ⟨hne, hclear⟩ := isClear_upperExpansions _ hmem
  obtain ⟨m, more, rfl⟩ := List.exists_cons_of_ne_nil hne
  refine ⟨List.mem_append_left _ (List.mem_map_of_mem hmem), m, more, rfl, ?_,
    hclear m List.mem_cons_self⟩
  exact List.mem_append_left _ (List.mem_filterMap.2 ⟨_, hmem, rfl⟩)

/-- A capital is a letter that upper case leaves as it is. -/
def IsCapital (c : Char) : Prop := isLetter c ∧ upper c = [c]

theorem isCapital_of_none (hletter : isLetter c) (hlookup : upperExpansions.lookup c.toNat = none)
    (hpartner : upperRows.partner? c.toNat = none) : IsCapital c := by
  have hone : upper c = [upperOne c] := by rw [upper, hlookup]
  refine ⟨hletter, ?_⟩
  rw [hone, upperOne, hpartner]

theorem isCapital_of_not_mem (hletter : isLetter c) (h : c.toNat ∉ smallCodes) : IsCapital c := by
  apply isCapital_of_none hletter
  · cases hns : upperExpansions.lookup c.toNat with
    | none => rfl
    | some ns => exact absurd (mem_codes_of_lookup hns).1 h
  · cases hm : upperRows.partner? c.toNat with
    | none => rfl
    | some m => exact absurd (mem_codes_of_partner? hm).1 h

theorem isCapital_of_mem (h : n ∈ capitalCodes) (hclear : isClear n n) :
    IsCapital (Char.ofNat n) := by
  have hchar := toNat_of_isClear hclear
  have hbit : (bits capitalCodes).testBit n = true := testBit_bits.2 h
  apply isCapital_of_not_mem
  · rw [isLetter, hchar, ← Ranges.testBit_bits]
    rw [← bits_capitalCodes_and, Nat.testBit_and, Bool.and_eq_true] at hbit
    exact hbit.2
  · rw [hchar]
    intro hsmall
    have hboth : (bits smallCodes &&& bits capitalCodes).testBit n = true := by
      rw [Nat.testBit_and, testBit_bits.2 hsmall, hbit]
      rfl
    rw [bits_smallCodes_and, Nat.zero_testBit] at hboth
    cases hboth

theorem exists_upper (h : isLetter c) : ∃ d ds, upper c = d :: ds ∧ IsCapital d := by
  rw [upper]
  cases hns : upperExpansions.lookup c.toNat with
  | some ns =>
      obtain ⟨-, m, more, rfl, hm, hclear⟩ := mem_codes_of_lookup hns
      exact ⟨_, _, rfl, isCapital_of_mem hm hclear⟩
  | none =>
      refine ⟨upperOne c, [], rfl, ?_⟩
      rw [upperOne]
      cases hm : upperRows.partner? c.toNat with
      | some m =>
          exact isCapital_of_mem (mem_codes_of_partner? hm).2
            (isClear_of_partner? isClear_upperRows hm)
      | none => exact isCapital_of_none h hns hm

end StatAlmanac.Text
