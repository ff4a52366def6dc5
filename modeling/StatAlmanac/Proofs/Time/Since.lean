import Mathlib.Tactic.Ring
import StatAlmanac.Time.Stamp

/-!
Spans between stamps. Spans between stamps outside leap seconds add up, so along
a clock that shows no leap second and never goes back they only grow. A leap
second lies on the time of day of the second before it, which spoils that.
-/

namespace StatAlmanac.Stamp

variable {a b c : Stamp}

theorem since_eq (ha : a.isLeap = false) (hb : b.isLeap = false) :
    a.since b = ((a.day - b.day) * secondsPerDay + (a.second - b.second)) * nanosPerSecond +
      (a.nanos - b.nanos) := by
  simp [since, ha, hb]

@[simp] theorem since_self (a : Stamp) : a.since a = 0 := by simp [since]

theorem since_add_since (ha : a.isLeap = false) (hb : b.isLeap = false) (hc : c.isLeap = false) :
    a.since b + b.since c = a.since c := by
  rw [since_eq ha hb, since_eq hb hc, since_eq ha hc]
  ring

structure Reaches (b a : Stamp) : Prop where
  start : b.isLeap = false
  stop : a.isLeap = false
  le : 0 ≤ a.since b

theorem Reaches.refl (ha : a.isLeap = false) : Reaches a a := ⟨ha, ha, (since_self a).ge⟩

theorem Reaches.trans (hab : Reaches a b) (hbc : Reaches b c) : Reaches a c := by
  refine ⟨hab.start, hbc.stop, ?_⟩
  have h := since_add_since hbc.stop hbc.start hab.start
  have := hab.le
  have := hbc.le
  omega

theorem Reaches.since_le (h : Reaches a b) (hc : c.isLeap = false) : a.since c ≤ b.since c := by
  have hsum := since_add_since h.stop h.start hc
  have := h.le
  omega

end StatAlmanac.Stamp
