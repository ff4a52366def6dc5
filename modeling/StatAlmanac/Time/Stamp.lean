import StatAlmanac.Time.Calendar
import StatAlmanac.Time.Duration

/-!
Points in time, in universal time: a day, a second of the day, and nanoseconds.
A leap second is the second before it running on to two thousand million
nanoseconds; only the last second of a minute may do so.
-/

namespace StatAlmanac

def secondsPerDay : Nat := 86400

/-- The first of January of the year -262143. -/
def firstDay : Int := -96465292

/-- The last of December of the year 262142. -/
def lastDay : Int := 95026236

structure Stamp where
  day : Int
  second : Nat
  nanos : Nat
  firstDay_le : firstDay ≤ day
  le_lastDay : day ≤ lastDay
  second_lt : second < secondsPerDay
  nanos_lt : nanos < 2 * nanosPerSecond
  leap_last : nanosPerSecond ≤ nanos → second % 60 = 59
  deriving DecidableEq, Repr

namespace Stamp

instance : Inhabited Stamp :=
  ⟨0, 0, 0, by decide, by decide, by decide, by decide, by decide⟩

def isLeap (s : Stamp) : Bool := nanosPerSecond ≤ s.nanos

def ofParts? (day : Int) (second nanos : Nat) : Option Stamp :=
  if h : firstDay ≤ day ∧ day ≤ lastDay ∧ second < secondsPerDay ∧ nanos < 2 * nanosPerSecond ∧
      (nanosPerSecond ≤ nanos → second % 60 = 59) then
    some ⟨day, second, nanos, h.1, h.2.1, h.2.2.1, h.2.2.2.1, h.2.2.2.2⟩
  else none

/-- Nanoseconds from `b` to `a`. A leap second counts when it lies between the two times of day. -/
def since (a b : Stamp) : Int :=
  let leaps : Int :=
    if b.second < a.second ∧ b.isLeap then 1
    else if a.second < b.second ∧ a.isLeap then -1
    else 0
  ((a.day - b.day) * secondsPerDay + (a.second - b.second) + leaps) * nanosPerSecond +
    (a.nanos - b.nanos)

/-- The time `d` later, if it lies in the years that have stamps. From within a leap second the
clock goes on as if from the second before, unless the sum lies in the leap second too. -/
def after? (s : Stamp) (d : Duration) : Option Stamp :=
  if s.isLeap ∧ d.seconds = 0 ∧ s.nanos + d.nanos < 2 * nanosPerSecond then
    ofParts? s.day s.second (s.nanos + d.nanos)
  else
    let nanos := s.nanos % nanosPerSecond + d.nanos
    let seconds := s.second + d.seconds + nanos / nanosPerSecond
    ofParts? (s.day + (seconds / secondsPerDay : Nat)) (seconds % secondsPerDay)
      (nanos % nanosPerSecond)

end Stamp

end StatAlmanac
