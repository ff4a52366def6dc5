import StatAlmanac.Proofs.Cache.Shelf
import StatAlmanac.Proofs.Time.Duration
import StatAlmanac.Proofs.Time.Later

/-!
What is left of a lifetime. Freshness compares an age with the lifetime; the rest
is counted back from the time at which freshness ends. Where that time has a
stamp the two agree but for leap seconds. Where it has none the entry is fresh
for good, and its rest is given as none.
-/

namespace StatAlmanac

namespace Entry

variable {e : Entry} {now t : Stamp}

theorem after?_of_expiresAt? (h : e.expiresAt? = some t) :
    e.storedAt.after? e.lifetime = some t := by
  rw [expiresAt?, Option.bind_eq_bind, Option.bind_eq_some_iff] at h
  obtain ⟨-, -, hafter⟩ := h
  exact hafter

theorem isFresh_of_expiresAt? (h : e.expiresAt? = none) (hnow : now.isLeap = false) :
    e.isFresh now := by
  cases hspan : e.span? with
  | none => simp [isFresh, hspan]
  | some span =>
      have hafter : e.storedAt.after? e.lifetime = none := by
        rw [expiresAt?, hspan] at h
        exact h
      have hend := Stamp.after?_eq_none hafter
      rw [isFresh_iff, Stamp.since_eq_count]
      have hcount : now.count < (lastDay + 1) * secondsPerDay * nanosPerSecond := now.count_lt hnow
      have hleaps : Stamp.leaps now e.storedAt ≤ if e.storedAt.isLeap then 1 else 0 := by
        rw [Stamp.leaps]
        grind
      cases hleap : e.storedAt.isLeap with
      | true =>
          rw [if_pos hleap] at hend hleaps
          simp only [nanosPerSecond] at *
          omega
      | false =>
          rw [if_neg (by simp [hleap])] at hend hleaps
          simp only [nanosPerSecond] at *
          omega

theorem remaining_of_expiresAt? (h : e.expiresAt? = none) (now : Stamp) :
    e.remaining now = .zero := by
  rw [remaining, h, Option.elim_none]

/-- What is left is the lifetime without the age, leap seconds aside. -/
theorem totalNanos_remaining (h : e.expiresAt? = some t) (now : Stamp) :
    (e.remaining now).totalNanos =
      (e.lifetime.totalNanos - now.since e.storedAt +
        Stamp.slip e.storedAt now t * nanosPerSecond).toNat := by
  have hlt := t.since_lt now
  rw [remaining, h, Option.elim_some, Duration.totalNanos_ofNanos,
    Stamp.since_after (after?_of_expiresAt? h)]
  simp only [longestLifetime, bound64, nanosPerMilli, nanosPerSecond] at *
  omega

theorem remaining_ne_zero_iff (h : e.expiresAt? = some t) (now : Stamp) :
    e.remaining now ≠ .zero ↔ now.since e.storedAt <
      e.lifetime.totalNanos + Stamp.slip e.storedAt now t * nanosPerSecond := by
  rw [Ne, Duration.eq_zero_iff, totalNanos_remaining h]
  omega

/-- The years that have stamps, which end at `lastDay`, are what bounds the end of freshness. -/
theorem expiresAt?_isSome_iff (h : e.storedAt.isLeap = false) :
    e.expiresAt?.isSome ↔
      e.storedAt.count + e.lifetime.totalNanos <
        (lastDay + 1) * secondsPerDay * nanosPerSecond := by
  constructor
  · intro hsome
    obtain ⟨t, ht⟩ := Option.isSome_iff_exists.1 hsome
    have hafter := after?_of_expiresAt? ht
    obtain ⟨hcount, hstays⟩ := Stamp.after?_eq_some hafter
    have hleap : t.isLeap = false := by
      rw [Bool.eq_false_iff]
      intro hleap
      simp [(hstays hleap).1] at h
    have hlt := t.count_lt hleap
    simp only [Stamp.skipped, h, Bool.false_eq_true, false_and, if_false] at hcount
    omega
  · intro hends
    have hspan : e.span? = some e.lifetime.totalNanos := by
      rw [span?, if_pos]
      have hday := e.storedAt.firstDay_le
      simp only [Stamp.count, longestLifetime, bound64, firstDay, lastDay, secondsPerDay,
        nanosPerSecond, nanosPerMilli] at *
      omega
    by_contra hnone
    have hafter : e.storedAt.after? e.lifetime = none := by
      rw [expiresAt?, hspan] at hnone
      exact Option.not_isSome_iff_eq_none.1 hnone
    have hle := Stamp.after?_eq_none hafter
    rw [if_neg (by simp [h])] at hle
    omega

/-- The rest of a lifetime, at any time, and the seconds of it that a listing shows. Off leap
seconds an entry is fresh exactly when some of its lifetime is left, unless its freshness would end
after the last stamp: then it is fresh and nothing is left. -/
theorem remaining_agrees_iff (e : Entry) (now : Stamp) :
    (∀ t, e.expiresAt? = some t → ∃ slip : Int, -2 ≤ slip ∧ slip ≤ 1 ∧
      (e.storedAt.isLeap = false → now.isLeap = false → slip = 0) ∧
      (e.remaining now).totalNanos = (e.lifetime.totalNanos - now.since e.storedAt +
        slip * nanosPerSecond).toNat ∧
      (e.remaining now ≠ .zero ↔
        now.since e.storedAt < e.lifetime.totalNanos + slip * nanosPerSecond)) ∧
    (e.expiresAt? = none →
      e.remaining now = .zero ∧ (now.isLeap = false → e.isFresh now)) ∧
    (e.storedAt.isLeap = false → now.isLeap = false →
      ((e.remaining now ≠ .zero ↔ e.isFresh now) ↔ e.storedAt.count + e.lifetime.totalNanos <
        (lastDay + 1) * secondsPerDay * nanosPerSecond)) ∧
    (e.remaining now).seconds = (e.remaining now).totalNanos / nanosPerSecond := by
  refine ⟨fun t ht => ?_, fun hnone => ?_, fun hstored hnow => ?_, Duration.seconds_eq _⟩
  · have hafter := after?_of_expiresAt? ht
    obtain ⟨hle, hge⟩ := Stamp.slip_bounds hafter now
    exact ⟨Stamp.slip e.storedAt now t, hle, hge, Stamp.slip_eq_zero hafter,
      totalNanos_remaining ht now, remaining_ne_zero_iff ht now⟩
  · exact ⟨remaining_of_expiresAt? hnone now, isFresh_of_expiresAt? hnone⟩
  · rw [← expiresAt?_isSome_iff hstored]
    cases ht : e.expiresAt? with
    | some t =>
        have hslip := Stamp.slip_eq_zero (after?_of_expiresAt? ht) hstored hnow
        simp [remaining_ne_zero_iff ht, hslip, isFresh_iff]
    | none => simp [remaining_of_expiresAt? ht, isFresh_of_expiresAt? ht hnow]

/-- With the longest lifetime an entry is fresh for good, and nothing is left of that. -/
theorem remaining_of_longest :
    ¬∀ (e : Entry) (now : Stamp), e.remaining now ≠ .zero ↔ e.isFresh now := by
  intro hagrees
  have h := hagrees ⟨"a", "A", default, 1, .max⟩ default
  exact absurd (by decide) (h.2 (by decide))

end Entry

end StatAlmanac
