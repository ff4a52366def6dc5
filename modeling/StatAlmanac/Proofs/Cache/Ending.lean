import StatAlmanac.Proofs.Cache.Expiry
import StatAlmanac.Proofs.Time.Order

/-!
The end of freshness. Outside leap seconds an entry is fresh exactly before the
instant given as its end, or at all times if none is given, since no stamp lies
behind an end that has none. So what is stale stays stale, and a longer lifetime
makes nothing stale.
-/

namespace StatAlmanac.Entry

variable {e : Entry} {now later t : Stamp}

/-- From a stamp outside leap seconds the end of freshness is counted as the lifetime goes on. -/
theorem count_of_expiresAt? (h : e.expiresAt? = some t) (hstored : e.storedAt.isLeap = false) :
    t.isLeap = false ∧ t.count = e.storedAt.count + e.lifetime.totalNanos := by
  obtain ⟨hcount, hstays⟩ := Stamp.after?_eq_some (after?_of_expiresAt? h)
  have hleap : t.isLeap = false := by
    rw [Bool.eq_false_iff]
    intro hleap
    rw [hstored] at hstays
    exact absurd (hstays hleap).1 Bool.false_ne_true
  refine ⟨hleap, ?_⟩
  simpa [Stamp.skipped, hstored] using hcount

theorem isFresh_iff_lt_of_expiresAt? (h : e.expiresAt? = some t)
    (hstored : e.storedAt.isLeap = false)
    (hnow : now.isLeap = false) : e.isFresh now ↔ now < t := by
  obtain ⟨hleap, hcount⟩ := count_of_expiresAt? h hstored
  rw [isFresh_iff, Stamp.since_eq_count_sub hnow hstored, Stamp.lt_iff_count_lt hnow hleap, hcount]
  omega

theorem not_isFresh_iff : e.isFresh now = false ↔ e.lifetime.totalNanos ≤ now.since e.storedAt := by
  rw [Bool.eq_false_iff, Ne, isFresh_iff, not_lt]

theorem not_isFresh_of_le (hstored : e.storedAt.isLeap = false) (hnow : now.isLeap = false)
    (hlater : later.isLeap = false) (hle : now ≤ later) (h : e.isFresh now = false) :
    e.isFresh later = false := by
  rw [not_isFresh_iff, Stamp.since_eq_count_sub hnow hstored] at h
  rw [not_isFresh_iff, Stamp.since_eq_count_sub hlater hstored]
  have hcount := (Stamp.le_iff_count_le hnow hlater).1 hle
  omega

/-- Outside leap seconds an entry is fresh exactly before the end of its freshness, or always if
there is none. Once stale it stays so; without a lifetime it is never fresh from its storing on; and
it stays fresh if its lifetime is made longer. -/
theorem isFresh_iff_before_end (e : Entry) (now : Stamp) (hstored : e.storedAt.isLeap = false)
    (hnow : now.isLeap = false) :
    (e.isFresh now ↔ e.expiresAt? = none ∨ ∃ t, e.expiresAt? = some t ∧ now < t) ∧
    (∀ later : Stamp, later.isLeap = false → now ≤ later → e.isFresh now = false →
      e.isFresh later = false) ∧
    (e.lifetime = .zero → e.storedAt ≤ now → e.isFresh now = false) ∧
    (∀ longer : Duration, e.lifetime.totalNanos ≤ longer.totalNanos → e.isFresh now →
      { e with lifetime := longer }.isFresh now) := by
  refine ⟨?_, fun later hlater => not_isFresh_of_le hstored hnow hlater, fun hzero hle => ?_,
    fun longer hlonger hfresh => ?_⟩
  · cases h : e.expiresAt? with
    | none => simp [isFresh_of_expiresAt? h hnow]
    | some t => simp [isFresh_iff_lt_of_expiresAt? h hstored hnow]
  · have hcount := (Stamp.le_iff_count_le hstored hnow).1 hle
    rw [not_isFresh_iff, hzero, Stamp.since_eq_count_sub hnow hstored]
    exact Int.sub_nonneg_of_le hcount
  · rw [isFresh_iff] at hfresh ⊢
    exact hfresh.trans_le (Int.ofNat_le.2 hlonger)

/-- What is stored for a minute is fresh up to the last nanosecond of it, and never again. -/
theorem isFresh_iff_before_end_minute :
    let e : Entry := ⟨"a", "A", default, 1, .ofSeconds 60⟩
    let last : Stamp := ⟨0, 59, 999999999, by decide, by decide, by decide, by decide, by decide⟩
    let stop : Stamp := ⟨0, 60, 0, by decide, by decide, by decide, by decide, by decide⟩
    e.expiresAt? = some stop ∧ e.isFresh last ∧
      ∀ later : Stamp, later.isLeap = false → stop ≤ later → e.isFresh later = false := by
  intro e last stop
  have hend : e.expiresAt? = some stop := by decide
  have hlt : last < stop := Stamp.lt_iff.2 (by decide)
  refine ⟨hend, (isFresh_iff_before_end e last rfl rfl).1.2 (.inr ⟨stop, hend, hlt⟩), ?_⟩
  intro later hlater hle
  exact (isFresh_iff_before_end e stop rfl rfl).2.1 later hlater hle (by decide)

end StatAlmanac.Entry
