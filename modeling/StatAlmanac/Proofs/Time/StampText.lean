import StatAlmanac.Proofs.Text.Utf8
import StatAlmanac.Proofs.Time.Calendar
import StatAlmanac.Time.StampText

/-!
A written stamp is read back as that stamp: years with and without a sign,
fractions of every length, and leap seconds.
-/

namespace StatAlmanac.Stamp

open Text

/-! ### Padded numbers -/

theorem isDigit_of_mem_padded {width n : Nat} {c : Char} (h : c ∈ padded width n) : c.isDigit := by
  rcases List.mem_append.1 h with h | h
  · obtain rfl := List.eq_of_mem_replicate h
    decide
  · exact Nat.isDigit_of_mem_toDigits (by decide) (by decide) h

theorem ofDigits_padded (width n : Nat) : Scan.ofDigits (padded width n) = n := by
  have h := Nat.ofDigitChars_append (b := 10)
    (l := List.replicate (width - (Nat.toDigits 10 n).length) '0') (m := Nat.toDigits 10 n) 0
  rw [Nat.ofDigitChars_replicate_zero, Nat.mul_zero, Nat.ofDigitChars_ten_toDigits] at h
  exact h

theorem length_padded (width n : Nat) :
    (padded width n).length = max width (Nat.toDigits 10 n).length := by
  simp only [padded, List.length_append, List.length_replicate]
  omega

theorem length_padded_of_lt {width n : Nat} (hwidth : 0 < width) (h : n < pow10 width) :
    (padded width n).length = width := by
  have hlen := (Nat.length_toDigits_le_iff (b := 10) (by decide) hwidth).2 h
  rw [length_padded]
  omega

theorem padded_ne_nil (width n : Nat) : padded width n ≠ [] := by
  intro h
  exact Nat.toDigits_ne_nil (List.append_eq_nil_iff.1 h).2

/-! ### Readers -/

namespace Scan

def EndsDigits (rest : List Char) : Prop := ∀ c ∈ rest.head?, ¬c.isDigit

def StartsSolid (s : List Char) : Prop := ∀ c ∈ s.head?, ¬isBlank c

theorem endsDigits_cons {c : Char} {rest : List Char} (h : ¬c.isDigit) :
    EndsDigits (c :: rest) := by
  intro d hd
  obtain rfl : c = d := by simpa using hd
  exact h

theorem startsSolid_cons {c : Char} {rest : List Char} (h : ¬isBlank c) :
    StartsSolid (c :: rest) := by
  intro d hd
  obtain rfl : c = d := by simpa using hd
  exact h

theorem not_isBlank_of_isDigit {c : Char} (h : c.isDigit) : ¬isBlank c := by
  simp only [Char.isDigit, Bool.and_eq_true, decide_eq_true_eq, ge_iff_le] at h
  have hlow : 48 ≤ c.toNat := h.1
  have hhigh : c.toNat ≤ 57 := h.2
  simp only [isBlank, blankRanges, Ranges.has]
  simp
  omega

theorem startsSolid_padded (width n : Nat) (rest : List Char) :
    StartsSolid (padded width n ++ rest) := by
  cases h : padded width n with
  | nil => exact absurd h (padded_ne_nil width n)
  | cons c ds =>
      have hmem : c ∈ padded width n := by rw [h]; exact List.mem_cons_self
      have hc := isDigit_of_mem_padded hmem
      exact startsSolid_cons (not_isBlank_of_isDigit hc)

variable {α β : Type}

theorem bind_apply (p : Scan α) (f : α → Scan β) (s : List Char) :
    (p >>= f) s = (p s).bind fun r => f r.1 r.2 := by
  show (StateT.bind p f) s = _
  rw [StateT.bind]
  cases p s <;> rfl

theorem bind_of_reads {p : Scan α} {f : α → Scan β} {s rest : List Char} {a : α}
    (h : p s = some (a, rest)) : (p >>= f) s = f a rest := by
  rw [bind_apply, h, Option.bind_some]

theorem pure_apply (a : α) (s : List Char) : (pure a : Scan α) s = some (a, s) := rfl

theorem get_apply (s : List Char) : (get : Scan (List Char)) s = some (s, s) := rfl

theorem set_apply (t s : List Char) : (set t : Scan PUnit) s = some (⟨⟩, t) := rfl

theorem blanks_of_solid {s : List Char} (h : StartsSolid s) : blanks s = some ((), s) := by
  show some ((), trimStart s) = _
  cases s with
  | nil => rfl
  | cons c s =>
      have hc : isBlank c = false := by simpa using h c (by simp)
      rw [trimStart, List.dropWhile_cons_of_neg (by simp [hc])]

theorem mark_cons (c : Char) (rest : List Char) : mark c (c :: rest) = some ((), rest) := by
  simp [mark, choose]

theorem allDigits_append {ds rest : List Char} (hds : ∀ c ∈ ds, c.isDigit)
    (hrest : EndsDigits rest) : allDigits (ds ++ rest) = ds := by
  have hstop : rest.takeWhile Char.isDigit = [] := by
    cases rest with
    | nil => rfl
    | cons c rest =>
        have hc := hrest c (by simp)
        simp [hc]
  rw [allDigits, List.takeWhile_append_of_pos hds, hstop, List.append_nil]

theorem digits_append {most : Nat} {ds rest : List Char} (hds : ∀ c ∈ ds, c.isDigit)
    (hne : ds ≠ []) (hlen : ds.length ≤ most) (hrest : EndsDigits rest) :
    digits most (ds ++ rest) = some (ds, rest) := by
  rw [digits, allDigits_append hds hrest, List.take_of_length_le hlen]
  cases ds with
  | nil => exact absurd rfl hne
  | cons d ds => simp

theorem digits_padded {most width n : Nat} {rest : List Char}
    (hlen : (padded width n).length ≤ most)
    (hrest : EndsDigits rest) :
    digits most (padded width n ++ rest) = some (padded width n, rest) :=
  digits_append (fun _ => isDigit_of_mem_padded) (padded_ne_nil width n) hlen hrest

theorem number_padded {n : Nat} {rest : List Char} (hn : n < 100) (hrest : EndsDigits rest) :
    number 2 (padded 2 n ++ rest) = some (n, rest) := by
  have hlen : (padded 2 n).length ≤ 2 := Nat.le_of_eq (length_padded_of_lt (by decide) hn)
  rw [number, bind_of_reads (blanks_of_solid (startsSolid_padded 2 n rest)), map_eq_pure_bind,
    bind_of_reads (digits_padded hlen hrest), pure_apply, ofDigits_padded]

theorem year_signed {sign : Char} {y : Nat} {rest : List Char} (hsign : sign = '-' ∨ sign = '+')
    (hrest : EndsDigits rest) :
    year (sign :: padded 4 y ++ rest) = some (if sign = '-' then -(y : Int) else y, rest) := by
  have hdigits : digits (padded 4 y ++ rest).length (padded 4 y ++ rest) =
      some (padded 4 y, rest) := digits_padded (by simp) hrest
  have hsolid : StartsSolid (sign :: padded 4 y ++ rest) := by
    apply startsSolid_cons
    rcases hsign with rfl | rfl <;> decide
  rw [year, bind_of_reads (blanks_of_solid hsolid), bind_of_reads (get_apply _)]
  rcases hsign with rfl | rfl
  · simp only [List.cons_append]
    rw [bind_of_reads (set_apply _ _), bind_of_reads hdigits, ofDigits_padded]
    rfl
  · simp only [List.cons_append]
    rw [bind_of_reads (set_apply _ _), bind_of_reads hdigits, ofDigits_padded]
    rfl

theorem year_unsigned {y : Nat} {rest : List Char} (hy : y ≤ 9999) (hrest : EndsDigits rest) :
    year (padded 4 y ++ rest) = some ((y : Int), rest) := by
  have hpow : pow10 4 = 10000 := rfl
  have hlen : (padded 4 y).length ≤ 4 :=
    Nat.le_of_eq (length_padded_of_lt (by decide) (by omega))
  have hdigits := digits_padded hlen hrest
  rw [year, bind_of_reads (blanks_of_solid (startsSolid_padded 4 y rest)),
    bind_of_reads (get_apply _)]
  cases hds : padded 4 y with
  | nil => exact absurd hds (padded_ne_nil 4 y)
  | cons c ds =>
      have hmem : c ∈ padded 4 y := by rw [hds]; exact List.mem_cons_self
      have hc := isDigit_of_mem_padded hmem
      -- a year that starts with a digit has no sign
      have hminus : c ≠ '-' := fun h => absurd (h ▸ hc) (by decide)
      have hplus : c ≠ '+' := fun h => absurd (h ▸ hc) (by decide)
      rw [hds] at hdigits
      have hvalue := ofDigits_padded 4 y
      rw [hds] at hvalue
      generalize hs : c :: ds ++ rest = s at hdigits ⊢
      split
      · exact absurd (List.cons.inj hs).1 hminus
      · exact absurd (List.cons.inj hs).1 hplus
      · rw [bind_of_reads hdigits, hvalue]
        rfl

theorem year_writeYear (y : Int) {rest : List Char} (hrest : EndsDigits rest) :
    year (writeYear y ++ rest) = some (y, rest) := by
  unfold writeYear
  split
  case isTrue h =>
    rw [year_unsigned (by omega) hrest, Int.toNat_of_nonneg h.1]
  case isFalse h =>
    split
    · rw [year_signed (.inl rfl) hrest]
      simp only [if_true]
      congr 2
      omega
    · rw [year_signed (.inr rfl) hrest]
      simp
      omega

/-- A written date, which has to lie in the years that have stamps, is read as its day. -/
theorem day_writeDate {d : Date} {rest : List Char} (hreal : d.isReal)
    (hfirst : firstDay ≤ d.toDay) (hlast : d.toDay ≤ lastDay) (hrest : EndsDigits rest) :
    day (writeDate d ++ rest) = some (d.toDay, rest) := by
  have hmonth := Date.month_lt_of_isReal hreal
  have hday := Date.day_lt_of_isReal hreal
  simp only [writeDate, List.append_assoc, List.cons_append]
  rw [day, bind_of_reads (year_writeYear d.year (endsDigits_cons (by decide))),
    bind_of_reads (blanks_of_solid (startsSolid_cons (by decide))), bind_of_reads (mark_cons ..),
    bind_of_reads (number_padded hmonth (endsDigits_cons (by decide))),
    bind_of_reads (blanks_of_solid (startsSolid_cons (by decide))), bind_of_reads (mark_cons ..),
    bind_of_reads (number_padded hday hrest), if_pos ⟨hreal, hfirst, hlast⟩, pure_apply]

theorem among_of_le {low high n : Nat} (s : List Char) (h : low ≤ n ∧ n ≤ high) :
    among low high n s = some (n, s) := by
  rw [among, if_pos h, pure_apply]

/-- Sixty seconds of a minute stand for its last second going on. -/
theorem clock_padded {hour minute second : Nat} {rest : List Char} (hhour : hour ≤ 23)
    (hminute : minute ≤ 59) (hsecond : second ≤ 60) (hrest : EndsDigits rest) :
    clock (padded 2 hour ++ ':' :: (padded 2 minute ++ ':' :: (padded 2 second ++ rest))) =
      some (if second = 60 then (hour * 3600 + minute * 60 + 59, nanosPerSecond)
        else (hour * 3600 + minute * 60 + second, 0), rest) := by
  rw [clock, bind_of_reads (number_padded (by omega) (endsDigits_cons (by decide))),
    bind_of_reads (among_of_le _ ⟨Nat.zero_le _, hhour⟩),
    bind_of_reads (blanks_of_solid (startsSolid_cons (by decide))), bind_of_reads (mark_cons ..),
    bind_of_reads (number_padded (by omega) (endsDigits_cons (by decide))),
    bind_of_reads (among_of_le _ ⟨Nat.zero_le _, hminute⟩),
    bind_of_reads (blanks_of_solid (startsSolid_cons (by decide))), bind_of_reads (mark_cons ..),
    bind_of_reads (number_padded (by omega) hrest),
    bind_of_reads (among_of_le _ ⟨Nat.zero_le _, hsecond⟩), pure_apply]

theorem fraction_digits {width n : Nat} {rest : List Char} (hwidth : 0 < width) (hle : width ≤ 9)
    (hn : n < pow10 width) (hrest : EndsDigits rest) :
    fraction ('.' :: padded width n ++ rest) = some (n * pow10 (9 - width), rest) := by
  have hlen := length_padded_of_lt hwidth hn
  have hall : allDigits (padded width n ++ rest) = padded width n :=
    allDigits_append (fun _ => isDigit_of_mem_padded) hrest
  simp only [List.cons_append, fraction, hall]
  split
  · rename_i hnil
    exact absurd hnil (padded_ne_nil width n)
  · rename_i ds hne
    have hdrop : (padded width n ++ rest).drop width = rest := List.drop_left' hlen
    rw [List.take_of_length_le (by omega), ofDigits_padded, hlen, hdrop]

/-- A fraction is written in no, three, six or nine digits, as many as it needs. -/
theorem fraction_writeFraction {n : Nat} {rest : List Char} (hn : n < nanosPerSecond)
    (hrest : EndsDigits rest) (hdot : rest.head? ≠ some '.') :
    fraction (writeFraction n ++ rest) = some (n, rest) := by
  simp only [nanosPerSecond] at hn
  have hpow : pow10 3 = 1000 ∧ pow10 6 = 1000000 ∧ pow10 9 = 1000000000 := ⟨rfl, rfl, rfl⟩
  simp only [writeFraction]
  split
  · rename_i hzero
    rw [hzero, List.nil_append]
    unfold fraction
    split
    · exact absurd rfl hdot
    · rfl
  · split
    · rename_i hmilli
      rw [fraction_digits (by decide) (by decide) (by omega) hrest]
      congr 2
      show n / 1000000 * 1000000 = n
      omega
    · split
      · rename_i hmicro
        rw [fraction_digits (by decide) (by decide) (by omega) hrest]
        congr 2
        show n / 1000 * 1000 = n
        omega
      · rw [fraction_digits (by decide) (by decide) (by omega) hrest]
        congr 2
        exact Nat.mul_one n

theorem offset_zone : offset ['Z'] = some (0, []) := by
  rw [offset, bind_of_reads (get_apply _)]
  rfl

end Scan

theorem ofParts?_parts (s : Stamp) : ofParts? s.day s.second s.nanos = some s := by
  have h : firstDay ≤ s.day ∧ s.day ≤ lastDay ∧ s.second < secondsPerDay ∧
      s.nanos < 2 * nanosPerSecond ∧ (nanosPerSecond ≤ s.nanos → s.second % 60 = 59) :=
    ⟨s.firstDay_le, s.le_lastDay, s.second_lt, s.nanos_lt, s.leap_last⟩
  rw [ofParts?, dif_pos h]

/-- A leap second is written as the sixtieth and read as the second before it, running on. -/
theorem clock_write (s : Stamp) {rest : List Char} (hrest : Scan.EndsDigits rest) :
    Scan.clock (padded 2 (s.second / 3600) ++ ':' :: (padded 2 (s.second / 60 % 60) ++
      ':' :: (padded 2 (s.second % 60 + s.nanos / nanosPerSecond) ++ rest))) =
      some ((s.second, s.nanos / nanosPerSecond * nanosPerSecond), rest) := by
  have hsecond := s.second_lt
  have hnanos := s.nanos_lt
  have hleap := s.leap_last
  simp only [secondsPerDay] at hsecond
  simp only [nanosPerSecond] at hnanos hleap ⊢
  rw [Scan.clock_padded (by omega) (by omega) (by omega) hrest]
  congr 2
  by_cases h : 1000000000 ≤ s.nanos
  · have h59 := hleap h
    rw [if_pos (by omega)]
    simp only [nanosPerSecond, Prod.mk.injEq]
    omega
  · rw [if_neg (by omega)]
    simp only [Prod.mk.injEq]
    omega

theorem head?_writeFraction_append (n : Nat) :
    (writeFraction n ++ ['Z']).head? = some (if n = 0 then 'Z' else '.') := by
  simp only [writeFraction]
  split
  · rfl
  · split
    · rfl
    · split <;> rfl

theorem stamp_write (s : Stamp) : Scan.stamp s.write = some (s, []) := by
  have hsecond := s.second_lt
  have hfirst : firstDay ≤ (Date.ofDay s.day).toDay := by
    rw [Date.toDay_ofDay]; exact s.firstDay_le
  have hlast : (Date.ofDay s.day).toDay ≤ lastDay := by
    rw [Date.toDay_ofDay]; exact s.le_lastDay
  have hday (rest : List Char) : Scan.day (writeDate (Date.ofDay s.day) ++ 'T' :: rest) =
      some ((Date.ofDay s.day).toDay, 'T' :: rest) :=
    Scan.day_writeDate (Date.isReal_ofDay s.day) hfirst hlast (Scan.endsDigits_cons (by decide))
  have hfraction : Scan.EndsDigits (writeFraction (s.nanos % nanosPerSecond) ++ ['Z']) := by
    intro c hc
    rw [head?_writeFraction_append] at hc
    split at hc
    all_goals
      cases hc
      decide
  have hnanos : s.nanos % nanosPerSecond < nanosPerSecond := Nat.mod_lt _ (by decide)
  simp only [write, writeWith, List.append_assoc, List.cons_append]
  rw [Scan.stamp, Scan.bind_of_reads (hday _),
    Scan.bind_of_reads (show Scan.separator ('T' :: _) = some ((), _) from rfl),
    Scan.bind_of_reads (clock_write s hfraction)]
  simp only []
  rw [Scan.bind_of_reads (Scan.fraction_writeFraction hnanos (Scan.endsDigits_cons (by decide))
      (by decide)),
    Scan.bind_of_reads (Scan.blanks_of_solid (Scan.startsSolid_cons (by decide))),
    Scan.bind_of_reads Scan.offset_zone, Date.toDay_ofDay]
  simp only [secondsPerDay] at hsecond
  -- without an offset the second stays in its day
  have hparts : ofParts? (s.day + ((s.second : Int) - 0) / (secondsPerDay : Int))
      ((s.second : Int) - 0 - ((s.second : Int) - 0) / (secondsPerDay : Int) * secondsPerDay).toNat
      (s.nanos / nanosPerSecond * nanosPerSecond + s.nanos % nanosPerSecond) = some s := by
    have hday : s.day + ((s.second : Int) - 0) / (secondsPerDay : Int) = s.day := by
      simp only [secondsPerDay]
      omega
    have hsec : ((s.second : Int) - 0 -
        ((s.second : Int) - 0) / (secondsPerDay : Int) * secondsPerDay).toNat = s.second := by
      simp only [secondsPerDay]
      omega
    rw [hday, hsec, Nat.div_add_mod', ofParts?_parts]
  simp only [hparts]
  rfl

theorem read?_write (s : Stamp) : read? s.write = some s := by
  rw [read?, stamp_write]
  rfl

end StatAlmanac.Stamp
