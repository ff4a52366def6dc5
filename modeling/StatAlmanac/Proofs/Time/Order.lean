import Mathlib.Data.Prod.Lex
import StatAlmanac.Proofs.Time.Later

/-!
Stamps in their order, which is that of days, then of seconds, then of
nanoseconds. Outside leap seconds it is also the order of the counts, and a stamp
is not before another exactly when the span from that one to it is not negative.
-/

namespace StatAlmanac.Stamp

variable {a b : Stamp}

def parts (s : Stamp) : Int ×ₗ Nat ×ₗ Nat := toLex (s.day, toLex (s.second, s.nanos))

theorem parts_injective : Function.Injective parts := by
  intro a b h
  obtain ⟨hday, htime⟩ := Prod.mk.inj (toLex.injective h)
  obtain ⟨hsecond, hnanos⟩ := Prod.mk.inj (toLex.injective htime)
  cases a
  cases b
  cases hday
  cases hsecond
  cases hnanos
  rfl

instance : LinearOrder Stamp := LinearOrder.lift' parts parts_injective

theorem lt_iff : a < b ↔ a.day < b.day ∨ a.day = b.day ∧
    (a.second < b.second ∨ a.second = b.second ∧ a.nanos < b.nanos) := by
  show parts a < parts b ↔ _
  rw [parts, parts, Prod.Lex.toLex_lt_toLex, Prod.Lex.toLex_lt_toLex]

theorem nanos_lt_of_not_isLeap (h : a.isLeap = false) : a.nanos < nanosPerSecond := by
  rw [Bool.eq_false_iff, Ne, isLeap_iff] at h
  exact Nat.not_le.1 h

theorem lt_iff_count_lt (ha : a.isLeap = false) (hb : b.isLeap = false) :
    a < b ↔ a.count < b.count := by
  have hnanos := nanos_lt_of_not_isLeap ha
  have hnanos' := nanos_lt_of_not_isLeap hb
  have hsecond := a.second_lt
  have hsecond' := b.second_lt
  rw [lt_iff]
  simp only [count, secondsPerDay, nanosPerSecond] at *
  omega

theorem le_iff_count_le (ha : a.isLeap = false) (hb : b.isLeap = false) :
    a ≤ b ↔ a.count ≤ b.count := by
  rw [← not_lt, lt_iff_count_lt hb ha, not_lt]

theorem since_eq_count_sub (ha : a.isLeap = false) (hb : b.isLeap = false) :
    a.since b = a.count - b.count := by
  simp [since_eq_count, leaps, ha, hb]

end StatAlmanac.Stamp
