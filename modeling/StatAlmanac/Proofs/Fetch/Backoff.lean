import StatAlmanac.Fetch.Plan
import StatAlmanac.Proofs.Time.Duration

/-!
How long a fetch waits before it repeats an attempt: the delay of its plan times a power of
two, exact to the nanosecond. Two limits hold the wait back. The factor stays at the largest
number of 32 bits, and the wait itself at the longest duration.
-/

namespace StatAlmanac.FetchPlan

variable {p q : FetchPlan} {a b : Nat}

/-- The nanoseconds that attempt `a` is to be followed by, whether or not a duration is so long. -/
def exactWait (p : FetchPlan) (a : Nat) : Nat :=
  p.delay.totalNanos * min (pow2 a) (pow2 32 - 1)

/-- The factor is a power of two as long as that has 32 bits. -/
theorem factor_eq_min (a : Nat) : factor a = min (pow2 a) (pow2 32 - 1) := by
  have hbound : pow2 32 - 1 = largestFactor := by decide
  rw [factor]
  split
  · rename_i h
    have hle : pow2 a ≤ pow2 31 := pow2_le_pow2 (Nat.le_of_lt_succ h)
    have hhalf : pow2 31 ≤ pow2 32 - 1 := by decide
    rw [Nat.min_eq_left (Nat.le_trans hle hhalf)]
  · rename_i h
    have hle : pow2 32 ≤ pow2 a := pow2_le_pow2 (Nat.le_of_not_lt h)
    rw [Nat.min_eq_right (Nat.le_trans (Nat.sub_le _ 1) hle), hbound]

theorem exactWait_eq (p : FetchPlan) (a : Nat) : p.exactWait a = p.delay.totalNanos * factor a := by
  rw [exactWait, factor_eq_min]

theorem factor_le_factor (h : a ≤ b) : factor a ≤ factor b := by
  have hpow := pow2_le_pow2 h
  rw [factor_eq_min, factor_eq_min]
  omega

theorem factor_succ (h : a + 1 < 32) : factor (a + 1) = 2 * factor a := by
  rw [factor, factor, if_pos h, if_pos (Nat.lt_of_succ_lt h), pow2_succ]

theorem exactWait_zero (p : FetchPlan) : p.exactWait 0 = p.delay.totalNanos := by
  rw [exactWait_eq]
  exact Nat.mul_one _

theorem exactWait_mono (p : FetchPlan) (h : a ≤ b) : p.exactWait a ≤ p.exactWait b := by
  rw [exactWait_eq, exactWait_eq]
  exact Nat.mul_le_mul_left _ (factor_le_factor h)

theorem exactWait_succ (p : FetchPlan) (h : a + 1 < 32) :
    p.exactWait (a + 1) = 2 * p.exactWait a := by
  rw [exactWait_eq, exactWait_eq, factor_succ h, Nat.mul_left_comm]

/-- The wait is the exact one, cut to the longest duration. -/
theorem totalNanos_backoff (p : FetchPlan) (a : Nat) :
    (p.backoff a).totalNanos = min (p.exactWait a) Duration.max.totalNanos := by
  rw [backoff, Duration.totalNanos_scale, exactWait_eq]

theorem totalNanos_backoff_of_fits (h : Duration.Fits (p.exactWait a)) :
    (p.backoff a).totalNanos = p.exactWait a := by
  rw [totalNanos_backoff, Nat.min_eq_left (Duration.fits_iff.1 h)]

theorem backoff_of_not_fits (h : ¬Duration.Fits (p.exactWait a)) : p.backoff a = .max := by
  have hlong : Duration.max.totalNanos ≤ p.exactWait a :=
    Nat.le_of_not_le fun hle => h (Duration.fits_iff.2 hle)
  apply Duration.eq_of_totalNanos
  rw [totalNanos_backoff, Nat.min_eq_right hlong]

theorem totalNanos_backoff_le (h : p.exactWait a ≤ q.exactWait b) :
    (p.backoff a).totalNanos ≤ (q.backoff b).totalNanos := by
  rw [totalNanos_backoff, totalNanos_backoff]
  omega

theorem delay_le_backoff (p : FetchPlan) (a : Nat) :
    p.delay.totalNanos ≤ (p.backoff a).totalNanos := by
  have hwait : p.delay.totalNanos ≤ p.exactWait a := by
    rw [← exactWait_zero]
    exact p.exactWait_mono a.zero_le
  rw [totalNanos_backoff]
  exact Nat.le_min.2 ⟨hwait, p.delay.totalNanos_le_max⟩

theorem backoff_doubles (h : a + 1 < 32) (hfits : Duration.Fits (p.exactWait (a + 1))) :
    (p.backoff (a + 1)).totalNanos = 2 * (p.backoff a).totalNanos := by
  have hbefore : Duration.Fits (p.exactWait a) := by
    rw [Duration.fits_iff] at hfits ⊢
    exact Nat.le_trans (p.exactWait_mono a.le_succ) hfits
  rw [totalNanos_backoff_of_fits hfits, totalNanos_backoff_of_fits hbefore, p.exactWait_succ h]

/-- The wait behind attempt `a` is the exact one, and the longest duration where no duration is so
long. Neither a later attempt nor a longer delay makes it shorter, it is never shorter than the
delay, and from attempt to attempt it doubles until the factor has 32 bits or no duration is so
long. -/
theorem backoff_exact (p q : FetchPlan) (a b : Nat) :
    (∀ d : Duration, d.totalNanos = p.exactWait a → p.backoff a = d) ∧
    (¬Duration.Fits (p.exactWait a) → p.backoff a = .max) ∧
    (a ≤ b → (p.backoff a).totalNanos ≤ (p.backoff b).totalNanos) ∧
    (p.delay.totalNanos ≤ q.delay.totalNanos →
      (p.backoff a).totalNanos ≤ (q.backoff a).totalNanos) ∧
    p.delay.totalNanos ≤ (p.backoff a).totalNanos ∧
    (a + 1 < 32 → Duration.Fits (p.exactWait (a + 1)) →
      (p.backoff (a + 1)).totalNanos = 2 * (p.backoff a).totalNanos) := by
  refine ⟨fun d hd => ?_, backoff_of_not_fits, fun hle => ?_, fun hle => ?_, p.delay_le_backoff a,
    backoff_doubles⟩
  · exact Duration.eq_of_totalNanos ((totalNanos_backoff_of_fits ⟨d, hd⟩).trans hd.symm)
  · exact totalNanos_backoff_le (p.exactWait_mono hle)
  · exact totalNanos_backoff_le (Nat.mul_le_mul_right _ hle)

/-- Half a second becomes four seconds behind attempt 3 and eight behind attempt 4. A delay of `2 ^
63` seconds cannot be doubled. -/
theorem backoff_exact_seconds :
    let short : FetchPlan := {}
    let long : FetchPlan := { delay := .ofSeconds (pow2 63) }
    ((Duration.ofSeconds 4).totalNanos = short.exactWait 3 ∧ short.backoff 3 = .ofSeconds 4) ∧
    (¬Duration.Fits (long.exactWait 1) ∧ long.backoff 1 = .max) ∧
    (short.backoff 3).totalNanos ≤ (short.backoff 40).totalNanos ∧
    (short.delay.totalNanos ≤ long.delay.totalNanos ∧
      (short.backoff 1).totalNanos ≤ (long.backoff 1).totalNanos) ∧
    (Duration.Fits (short.exactWait (3 + 1)) ∧
      (short.backoff (3 + 1)).totalNanos = 2 * (short.backoff 3).totalNanos) := by
  intro short long
  have hfour : (Duration.ofSeconds 4).totalNanos = short.exactWait 3 := by decide
  have hlong : ¬Duration.Fits (long.exactWait 1) := by
    rw [Duration.fits_iff]
    decide
  have hle : short.delay.totalNanos ≤ long.delay.totalNanos := by decide
  have hfits : Duration.Fits (short.exactWait (3 + 1)) := Duration.fits_iff.2 (by decide)
  obtain ⟨hexact, -, hmono, -, -, hdoubles⟩ := backoff_exact short long 3 40
  obtain ⟨-, hmax, -⟩ := backoff_exact long long 1 1
  obtain ⟨-, -, -, hlonger, -⟩ := backoff_exact short long 1 1
  exact ⟨⟨hfour, hexact _ hfour⟩, ⟨hlong, hmax hlong⟩, hmono (by decide), ⟨hle, hlonger hle⟩,
    ⟨hfits, hdoubles (by decide) hfits⟩⟩

end StatAlmanac.FetchPlan
