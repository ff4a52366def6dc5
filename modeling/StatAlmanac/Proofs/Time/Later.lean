import StatAlmanac.Proofs.Time.Since

/-!
The time a duration later, and how far it is from other times. Nanoseconds are
counted from the start of the day zero, and spans are differences of counts but
for the leap seconds that they take in: a clock that goes on from a leap second
loses it, and a span counts one that lies between two times of day.
-/

namespace StatAlmanac.Stamp

variable {s t now : Stamp} {d : Duration}

/-- Nanoseconds from the start of the day zero,
a leap second being counted as the second behind it. -/
def count (s : Stamp) : Int := (s.day * secondsPerDay + s.second) * nanosPerSecond + s.nanos

/-- Leap seconds that a span from `b` to `a` counts besides. -/
def leaps (a b : Stamp) : Int :=
  if b.second < a.second ∧ b.isLeap then 1 else if a.second < b.second ∧ a.isLeap then -1 else 0

theorem since_eq_count (a b : Stamp) :
    a.since b = a.count - b.count + leaps a b * nanosPerSecond := by
  simp only [since, count, leaps]
  ring

/-- A leap second is left: the clock goes on from the second before it. -/
def skipped (s t : Stamp) : Int := if s.isLeap ∧ t.isLeap = false then 1 else 0

theorem ofParts?_eq_some {day : Int} {second nanos : Nat} (h : ofParts? day second nanos = some t) :
    t.day = day ∧ t.second = second ∧ t.nanos = nanos := by
  rw [ofParts?] at h
  split at h
  · cases h
    exact ⟨rfl, rfl, rfl⟩
  · cases h

theorem isLeap_iff : s.isLeap ↔ nanosPerSecond ≤ s.nanos := by
  rw [isLeap, decide_eq_true_iff]

theorem count_lt (h : s.isLeap = false) :
    s.count < (lastDay + 1) * secondsPerDay * nanosPerSecond := by
  have hday := s.le_lastDay
  have hsecond := s.second_lt
  rw [Bool.eq_false_iff, Ne, isLeap_iff] at h
  simp only [count, secondsPerDay, nanosPerSecond] at *
  omega

theorem nanos_mod (s : Stamp) :
    s.nanos % nanosPerSecond = s.nanos - if s.isLeap then nanosPerSecond else 0 := by
  have := s.nanos_lt
  split
  · rename_i hleap
    rw [isLeap_iff] at hleap
    simp only [nanosPerSecond] at *
    omega
  · rename_i hleap
    rw [isLeap_iff] at hleap
    simp only [nanosPerSecond] at *
    omega

theorem after?_eq_some (h : s.after? d = some t) :
    t.count = s.count + d.totalNanos - skipped s t * nanosPerSecond ∧
      (t.isLeap → s.isLeap ∧ t.second = s.second) := by
  rw [after?] at h
  split at h
  · rename_i hstays
    obtain ⟨hleap, hseconds, -⟩ := hstays
    obtain ⟨hday, hsecond, hnanos⟩ := ofParts?_eq_some h
    have ht : t.isLeap := by
      rw [isLeap_iff] at hleap ⊢
      omega
    refine ⟨?_, fun _ => ⟨hleap, hsecond⟩⟩
    simp only [count, skipped, hday, hsecond, hnanos, Duration.totalNanos, hseconds, ht]
    simp
    ring
  · obtain ⟨hday, hsecond, hnanos⟩ := ofParts?_eq_some h
    have ht : t.isLeap = false := by
      rw [Bool.eq_false_iff, Ne, isLeap_iff, hnanos]
      exact Nat.not_le_of_lt (Nat.mod_lt _ (by decide))
    refine ⟨?_, fun hleap => by simp [ht] at hleap⟩
    have hmod := nanos_mod s
    simp only [count, skipped, hday, hsecond, hnanos, Duration.totalNanos, ht, and_true]
    split at hmod
    · rename_i hleap
      have := isLeap_iff.1 hleap
      simp only [hleap, if_true, secondsPerDay, nanosPerSecond] at *
      omega
    · rename_i hleap
      simp only [hleap, secondsPerDay, nanosPerSecond] at *
      simp
      omega

theorem ofParts?_eq_none {day : Int} {second nanos : Nat} (h : ofParts? day second nanos = none)
    (hday : firstDay ≤ day) (hsecond : second < secondsPerDay) (hnanos : nanos < 2 * nanosPerSecond)
    (hleap : nanosPerSecond ≤ nanos → second % 60 = 59) : lastDay < day := by
  rw [ofParts?] at h
  split at h
  · cases h
  · rename_i hparts
    by_contra hle
    exact hparts ⟨hday, Int.not_lt.1 hle, hsecond, hnanos, hleap⟩

theorem after?_eq_none (h : s.after? d = none) :
    (lastDay + 1) * secondsPerDay * nanosPerSecond ≤
      s.count + d.totalNanos - if s.isLeap then nanosPerSecond else 0 := by
  have hfirst := s.firstDay_le
  rw [after?] at h
  split at h
  · rename_i hstays
    -- what stays in a leap second stays in its day
    have hlast := ofParts?_eq_none h hfirst s.second_lt hstays.2.2
      fun _ => s.leap_last (isLeap_iff.1 hstays.1)
    exact absurd s.le_lastDay (Int.not_le.2 hlast)
  · have hnanos : (s.nanos % nanosPerSecond + d.nanos) % nanosPerSecond < nanosPerSecond :=
      Nat.mod_lt _ (by decide)
    have hday : firstDay ≤ s.day + ((s.second + d.seconds +
        (s.nanos % nanosPerSecond + d.nanos) / nanosPerSecond) / secondsPerDay : Nat) :=
      Int.le_trans hfirst (Int.le_add_of_nonneg_right (Int.natCast_nonneg _))
    have hlast := ofParts?_eq_none h hday (Nat.mod_lt _ (by decide)) (by omega) (by omega)
    have hmod := nanos_mod s
    simp only [count, Duration.totalNanos, secondsPerDay, nanosPerSecond] at *
    split at hmod
    · rename_i hleap
      have := isLeap_iff.1 hleap
      simp only [nanosPerSecond] at this
      rw [if_pos hleap]
      omega
    · rename_i hleap
      rw [if_neg hleap]
      omega

/-! ### What is left of a span -/

/-- By how many leap seconds the span from `s` to `t` differs from the sum of the spans at `now`. -/
def slip (s now t : Stamp) : Int := leaps t now + leaps now s - skipped s t

/-- A time before and the one a duration later are the duration apart, leap seconds aside. -/
theorem since_after (h : s.after? d = some t) (now : Stamp) :
    t.since now = d.totalNanos - now.since s + slip s now t * nanosPerSecond := by
  obtain ⟨hcount, -⟩ := after?_eq_some h
  rw [since_eq_count, since_eq_count, hcount, slip]
  ring

theorem slip_eq_zero (h : s.after? d = some t) (hs : s.isLeap = false) (hnow : now.isLeap = false) :
    slip s now t = 0 := by
  have ht : t.isLeap = false := by
    rw [Bool.eq_false_iff]
    intro hleap
    simp [((after?_eq_some h).2 hleap).1] at hs
  simp [slip, leaps, skipped, hs, hnow, ht]

theorem slip_bounds (h : s.after? d = some t) (now : Stamp) :
    -2 ≤ slip s now t ∧ slip s now t ≤ 1 := by
  obtain ⟨-, hstays⟩ := after?_eq_some h
  simp only [slip, leaps, skipped]
  grind

end StatAlmanac.Stamp
