import StatAlmanac.Text.Blank
import StatAlmanac.Text.Case
import StatAlmanac.Text.Fold
import StatAlmanac.Text.Letter

/-!
What a change of case turns characters into. The partners that a row of the tables
gives are an interval of code points, so its two ends show what they cannot be: no
partner is a blank, and none comes before the letter A. A mark such as a bracket is
therefore like no other character.
-/

namespace StatAlmanac.Text

variable {c d : Char} {n m : Nat}

theorem Ranges.has_eq_false {r : Ranges} (h : ∀ i ∈ r, n < i.1 ∨ i.2 < n) : r.has n = false := by
  induction r with
  | nil => rfl
  | cons i r ih =>
      obtain ⟨hi, hr⟩ := List.forall_mem_cons.1 h
      rw [has, ih hr, Bool.or_false]
      split
      · rfl
      · exact decide_eq_false (Nat.not_le_of_lt (hi.resolve_left ‹_›))

theorem CaseRows.exists_row {rows : CaseRows} (h : rows.partner? n = some m) :
    ∃ row ∈ rows, row.1 ≤ n ∧ n ≤ row.2.1 ∧ (n - row.1) % row.2.2.1 = 0 ∧
      m = ((n : Int) + row.2.2.2).toNat := by
  induction rows with
  | nil => cases h
  | cons row rows ih =>
      rw [partner?] at h
      split at h
      · cases h
      · rename_i hfirst
        split at h
        · rename_i hlast
          rw [Bool.and_eq_true, decide_eq_true_iff, beq_iff_eq] at hlast
          exact ⟨row, List.mem_cons_self, Nat.not_lt.1 hfirst, hlast.1, hlast.2,
            (Option.some.inj h).symm⟩
        · obtain ⟨row', hmem, hrow⟩ := ih h
          exact ⟨row', List.mem_cons_of_mem row hmem, hrow⟩

/-- The code points from `low` to `high` are characters, none of them a blank or before the letter
A. -/
def isClear (low high : Int) : Bool :=
  0x41 ≤ low && (high < 0xD800 || 0xE000 ≤ low && high < 0x110000) &&
    blankRanges.all fun r => high < r.1 || r.2 < low

theorem isClear_upperRows :
    upperRows.all fun row => isClear (row.1 + row.2.2.2) (row.2.1 + row.2.2.2) := by
  decide

theorem isClear_lowerRows :
    lowerRows.all fun row => isClear (row.1 + row.2.2.2) (row.2.1 + row.2.2.2) := by
  decide

theorem isClear_upperExpansions :
    ∀ e ∈ upperExpansions, e.2 ≠ [] ∧ ∀ n ∈ e.2, isClear n n := by
  decide

def IsRaised (c : Char) : Prop := isBlank c = false ∧ 'A' ≤ c

theorem isClear_self {low high : Int} (h : isClear low high) (hlow : low ≤ n) (hhigh : n ≤ high) :
    isClear n n := by
  simp only [isClear, Bool.and_eq_true, Bool.or_eq_true, decide_eq_true_eq, List.all_eq_true] at h ⊢
  obtain ⟨⟨hletter, hvalid⟩, hblank⟩ := h
  refine ⟨⟨by omega, by omega⟩, fun r hr => ?_⟩
  have := hblank r hr
  omega

theorem isClear_of_partner? {rows : CaseRows}
    (hrows : rows.all fun row => isClear (row.1 + row.2.2.2) (row.2.1 + row.2.2.2))
    (h : rows.partner? n = some m) : isClear m m := by
  obtain ⟨row, hmem, hfirst, hlast, -, rfl⟩ := CaseRows.exists_row h
  have hclear := List.all_eq_true.1 hrows row hmem
  have hpositive : 0 ≤ (n : Int) + row.2.2.2 := by
    simp only [isClear, Bool.and_eq_true, decide_eq_true_eq] at hclear
    omega
  exact isClear_self hclear (by omega) (by omega)

theorem toNat_of_isClear (h : isClear n n) : (Char.ofNat n).toNat = n := by
  simp only [isClear, Bool.and_eq_true, Bool.or_eq_true, decide_eq_true_eq] at h
  have hvalid : n < 0xD800 ∨ 0xDFFF < n ∧ n < 0x110000 := by omega
  rw [Char.ofNat, dif_pos hvalid]
  rfl

theorem isRaised_of_isClear (h : isClear n n) : IsRaised (Char.ofNat n) := by
  have hchar := toNat_of_isClear h
  simp only [isClear, Bool.and_eq_true, Bool.or_eq_true, decide_eq_true_eq, List.all_eq_true] at h
  obtain ⟨⟨hletter, -⟩, hblank⟩ := h
  constructor
  · rw [isBlank, hchar]
    refine Ranges.has_eq_false fun r hr => ?_
    have := hblank r hr
    omega
  · show 0x41 ≤ (Char.ofNat n).toNat
    omega

theorem le_of_isLetter (h : isLetter c) : 'A' ≤ c := by
  refine Nat.not_lt.1 fun hlt => ?_
  have hclass : isLetter c = false := Ranges.has_of_lt _ hlt
  rw [hclass] at h
  cases h

theorem isRaised_upperOne (hletter : isLetter c) (hsolid : isBlank c = false) :
    IsRaised (upperOne c) := by
  rw [upperOne]
  split
  · rename_i n hn
    exact isRaised_of_isClear (isClear_of_partner? isClear_upperRows hn)
  · exact ⟨hsolid, le_of_isLetter hletter⟩

theorem isRaised_upper (hletter : isLetter c) (hsolid : isBlank c = false) :
    upper c ≠ [] ∧ ∀ d ∈ upper c, IsRaised d := by
  rw [upper]
  split
  · rename_i ns hns
    have hmem : (c.toNat, ns) ∈ upperExpansions := by
      obtain ⟨l, l', hsplit, -⟩ := List.lookup_eq_some_iff.1 hns
      simp [hsplit]
    obtain ⟨hne, hclear⟩ := isClear_upperExpansions _ hmem
    refine ⟨mt List.map_eq_nil_iff.1 hne, fun d hd => ?_⟩
    obtain ⟨n, hn, rfl⟩ := List.mem_map.1 hd
    exact isRaised_of_isClear (hclear n hn)
  · refine ⟨List.cons_ne_nil _ _, fun d hd => ?_⟩
    rw [List.mem_singleton.1 hd]
    exact isRaised_upperOne hletter hsolid

/-! ### Characters without case -/

theorem upperOne_eq_self_or (c : Char) : upperOne c = c ∨ 'A' ≤ upperOne c := by
  rw [upperOne]
  split
  · rename_i n hn
    exact .inr (isRaised_of_isClear (isClear_of_partner? isClear_upperRows hn)).2
  · exact .inl rfl

theorem lowerOne_eq_self_or (c : Char) : lowerOne c = c ∨ 'A' ≤ lowerOne c := by
  rw [lowerOne]
  split
  · rename_i n hn
    exact .inr (isRaised_of_isClear (isClear_of_partner? isClear_lowerRows hn)).2
  · exact .inl rfl

theorem fold_eq_self_or (c : Char) : fold c = c ∨ 'A' ≤ fold c := by
  rw [fold]
  split
  · exact .inl rfl
  split
  · exact .inr (by decide)
  split
  · exact .inr (by decide)
  split
  · exact .inr (by decide)
  · rcases lowerOne_eq_self_or (upperOne c) with hlower | hlower
    · rw [hlower]
      exact upperOne_eq_self_or c
    · exact .inr hlower

/-- A character that comes before the letters and has no case is like itself only. -/
theorem eq_of_sameLetter {a : Char} (ha : fold a = a) (hlt : a < 'A')
    (h : sameLetter a c) : c = a := by
  have hfold : fold a = fold c := eq_of_beq h
  rw [ha] at hfold
  rcases fold_eq_self_or c with hc | hc
  · rw [hfold, hc]
  · rw [← hfold] at hc
    exact absurd hc (Char.not_le.2 hlt)

end StatAlmanac.Text
