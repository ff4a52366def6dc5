import StatAlmanac.Time.Calendar

/-!
Days and dates stand for each other: the date of a day is a real one, and its
day is the day it came from.
-/

namespace StatAlmanac

namespace Calendar

def daysOfYear (isLeap : Bool) : Nat := if isLeap then 366 else 365

theorem daysBefore_add_one (year : Int) :
    daysBefore (year + 1) = daysBefore year + daysOfYear (isLeapYear year) := by
  by_cases h4 : year % 4 = 0
  · by_cases h100 : year % 100 = 0
    · by_cases h400 : year % 400 = 0
      · have hleap : isLeapYear year = true := by simp [isLeapYear, h4, h400]
        simp only [daysBefore, daysOfYear, hleap, if_true]
        omega
      · have hleap : isLeapYear year = false := by simp [isLeapYear, h100, h400]
        simp only [daysBefore, daysOfYear, hleap]
        simp
        omega
    · have hleap : isLeapYear year = true := by simp [isLeapYear, h4, h100]
      simp only [daysBefore, daysOfYear, hleap, if_true]
      omega
  · have hleap : isLeapYear year = false := by simp [isLeapYear, h4]
    simp only [daysBefore, daysOfYear, hleap]
    simp
    omega

theorem daysBefore_yearOf_le (n : Int) : daysBefore (yearOf n) ≤ n := by
  simp only [yearOf]
  split
  · assumption
  · simp only [daysBefore]
    omega

theorem lt_daysBefore_yearOf (n : Int) : n < daysBefore (yearOf n + 1) := by
  simp only [yearOf]
  split
  · simp only [daysBefore]
    omega
  · omega

/-- A day that lies in one of the months is found in its month: the months before it and the days
before it in that month make up its number. -/
theorem place_spec (month rest : Nat) {lengths : List Nat}
    (h : rest < lengths.foldr (· + ·) 0) :
    ∃ i d, place month rest lengths = (month + i, d + 1) ∧ d < lengths.getD i 0 ∧
      i < lengths.length ∧ (lengths.take i).foldr (· + ·) 0 + d = rest := by
  induction lengths generalizing month rest with
  | nil => simp at h
  | cons length lengths ih =>
      by_cases hlt : rest < length
      · exact ⟨0, rest, by simp [place, hlt], by simpa using hlt, by simp, by simp⟩
      · rw [List.foldr_cons] at h
        obtain ⟨i, d, hplace, hd, hi, hsum⟩ := ih (month + 1) (rest - length) (by omega)
        refine ⟨i + 1, d, ?_, ?_, ?_, ?_⟩
        · rw [place, if_neg hlt, hplace, Nat.add_assoc, Nat.add_comm 1 i]
        · simpa using hd
        · simpa using hi
        · rw [List.take_succ_cons, List.foldr_cons]
          omega

theorem sum_monthLengths (isLeap : Bool) :
    (monthLengths isLeap).foldr (· + ·) 0 = daysOfYear isLeap := by
  cases isLeap <;> rfl

end Calendar

open Calendar

namespace Date

theorem getD_monthLengths_le (isLeap : Bool) (i : Nat) : (monthLengths isLeap).getD i 0 ≤ 31 := by
  have hall : ∀ isLeap : Bool, ∀ length ∈ monthLengths isLeap, length ≤ 31 := by decide
  rw [List.getD_eq_getElem?_getD]
  cases h : (monthLengths isLeap)[i]? with
  | none => simp
  | some length => exact hall isLeap length (List.mem_of_getElem? h)

theorem month_lt_of_isReal {d : Date} (h : d.isReal) : d.month < 100 := by
  simp only [isReal, Bool.and_eq_true, decide_eq_true_eq] at h
  omega

theorem day_lt_of_isReal {d : Date} (h : d.isReal) : d.day < 100 := by
  have hlen : lengthOfMonth d.year d.month ≤ 31 := getD_monthLengths_le _ _
  simp only [isReal, Bool.and_eq_true, decide_eq_true_eq] at h
  omega

theorem ofDay_spec (day : Int) :
    ∃ (year : Int) (i d : Nat), ofDay day = ⟨year, 1 + i, d + 1⟩ ∧
      i < 12 ∧ d < (monthLengths (isLeapYear year)).getD i 0 ∧
      day + epoch =
        daysBefore year +
          (((monthLengths (isLeapYear year)).take i).foldr (· + ·) 0 + d : Nat) := by
  have hle := daysBefore_yearOf_le (day + epoch)
  have hlt := lt_daysBefore_yearOf (day + epoch)
  rw [daysBefore_add_one] at hlt
  -- what is left of the days in their year is less than that year
  have hrest : (day + epoch - daysBefore (yearOf (day + epoch))).toNat <
      (monthLengths (isLeapYear (yearOf (day + epoch)))).foldr (· + ·) 0 := by
    rw [sum_monthLengths]
    omega
  obtain ⟨i, d, hplace, hd, hi, hsum⟩ := place_spec 1 _ hrest
  refine ⟨yearOf (day + epoch), i, d, ?_, ?_, hd, ?_⟩
  · simp only [ofDay, hplace]
  · cases h : isLeapYear (yearOf (day + epoch)) <;> simpa [h, monthLengths] using hi
  · rw [hsum]
    omega

theorem isReal_ofDay (day : Int) : (ofDay day).isReal := by
  obtain ⟨year, i, d, hdate, hi, hd, -⟩ := ofDay_spec day
  rw [hdate]
  simp only [isReal, lengthOfMonth, Bool.and_eq_true, decide_eq_true_eq, Nat.add_sub_cancel_left]
  omega

theorem toDay_ofDay (day : Int) : (ofDay day).toDay = day := by
  obtain ⟨year, i, d, hdate, -, -, hsum⟩ := ofDay_spec day
  rw [hdate]
  simp only [toDay, daysBeforeMonth, Nat.add_sub_cancel_left, Nat.add_sub_cancel]
  omega

end Date

end StatAlmanac
