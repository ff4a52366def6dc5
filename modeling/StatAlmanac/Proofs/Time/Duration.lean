import StatAlmanac.Time.Duration

/-!
A duration is its number of nanoseconds, and there is one for each number up to that of
the longest. Sums and multiples are exact as far as that, carries included, and stay there.
-/

namespace StatAlmanac.Duration

variable {d e : Duration} {n : Nat}

theorem seconds_eq (d : Duration) : d.seconds = d.totalNanos / nanosPerSecond := by
  have hnanos := d.nanos_lt
  simp only [totalNanos, nanosPerSecond] at *
  omega

theorem eq_of_totalNanos (h : d.totalNanos = e.totalNanos) : d = e := by
  have hseconds : d.seconds = e.seconds := by rw [seconds_eq, h, ← seconds_eq]
  have hnanos : d.nanos = e.nanos := by
    rw [totalNanos, totalNanos, hseconds] at h
    exact Nat.add_left_cancel h
  cases d
  cases e
  cases hseconds
  cases hnanos
  rfl

theorem eq_zero_iff : d = zero ↔ d.totalNanos = 0 :=
  ⟨fun h => h ▸ rfl, fun h => eq_of_totalNanos h⟩

theorem lt_bound_iff : n < bound64 * nanosPerSecond ↔ n ≤ max.totalNanos :=
  Nat.lt_succ_iff

theorem totalNanos_le_max (d : Duration) : d.totalNanos ≤ max.totalNanos := by
  have hseconds := d.seconds_lt
  have hnanos := d.nanos_lt
  rw [← lt_bound_iff]
  simp only [totalNanos, nanosPerSecond, bound64] at *
  omega

/-- The carry takes the seconds past their bits exactly where no duration is long enough. -/
theorem totalNanos_ofParts_eq_min (seconds nanos : Nat) :
    (ofParts seconds nanos).totalNanos = min (seconds * nanosPerSecond + nanos) max.totalNanos := by
  by_cases h : seconds + nanos / nanosPerSecond < bound64
  · have hle : seconds * nanosPerSecond + nanos ≤ max.totalNanos := by
      rw [← lt_bound_iff]
      simp only [nanosPerSecond, bound64] at *
      omega
    rw [totalNanos_ofParts h, Nat.min_eq_left hle]
  · have hlt : max.totalNanos ≤ seconds * nanosPerSecond + nanos := by
      apply Nat.le_of_not_lt
      intro hlt
      have hbound := lt_bound_iff.2 (Nat.le_of_lt hlt)
      simp only [nanosPerSecond, bound64] at *
      omega
    rw [ofParts_eq_max h, Nat.min_eq_right hlt]

theorem totalNanos_ofNanos (h : n < bound64 * nanosPerSecond) : (ofNanos n).totalNanos = n := by
  rw [ofNanos, totalNanos_ofParts_eq_min, Nat.zero_mul, Nat.zero_add,
    Nat.min_eq_left (lt_bound_iff.1 h)]

theorem totalNanos_scale (d : Duration) (k : Nat) :
    (d.scale k).totalNanos = min (d.totalNanos * k) max.totalNanos := by
  have hparts : d.seconds * k * nanosPerSecond + d.nanos * k = d.totalNanos * k := by
    rw [totalNanos, Nat.add_mul, Nat.mul_right_comm]
  rw [scale, totalNanos_ofParts_eq_min, hparts]

def Fits (n : Nat) : Prop := ∃ d : Duration, d.totalNanos = n

theorem fits_iff : Fits n ↔ n ≤ max.totalNanos :=
  ⟨fun ⟨d, h⟩ => h ▸ d.totalNanos_le_max,
    fun h => ⟨ofNanos n, totalNanos_ofNanos (lt_bound_iff.2 h)⟩⟩

end StatAlmanac.Duration
