import StatAlmanac.Decimal.Power

/-!
Lengths of time: whole seconds that fit 64 bits, and nanoseconds. Sums and
multiples that no longer fit become the longest duration.
-/

namespace StatAlmanac

def nanosPerSecond : Nat := 1000000000

def nanosPerMilli : Nat := 1000000

structure Duration where
  seconds : Nat
  nanos : Nat
  seconds_lt : seconds < bound64
  nanos_lt : nanos < nanosPerSecond
  deriving DecidableEq, Repr

namespace Duration

def zero : Duration := ⟨0, 0, by decide, by decide⟩

def max : Duration := ⟨bound64 - 1, nanosPerSecond - 1, by decide, by decide⟩

instance : Inhabited Duration := ⟨zero⟩

def totalNanos (d : Duration) : Nat := d.seconds * nanosPerSecond + d.nanos

/-- Seconds and nanoseconds, the nanoseconds in excess of a second carried over. -/
def ofParts (seconds nanos : Nat) : Duration :=
  if h : seconds + nanos / nanosPerSecond < bound64 then
    ⟨seconds + nanos / nanosPerSecond, nanos % nanosPerSecond, h, Nat.mod_lt _ (by decide)⟩
  else max

def ofNanos (n : Nat) : Duration := ofParts 0 n

def ofMillis (n : Nat) : Duration := ofNanos (n * nanosPerMilli)

def ofSeconds (n : Nat) : Duration := ofParts n 0

def toMillis (d : Duration) : Nat := d.totalNanos / nanosPerMilli

def add (a b : Duration) : Duration := ofParts (a.seconds + b.seconds) (a.nanos + b.nanos)

def scale (d : Duration) (k : Nat) : Duration := ofParts (d.seconds * k) (d.nanos * k)

/-- What `a` is longer than `b`, if it is longer. -/
def sub (a b : Duration) : Duration := ofNanos (a.totalNanos - b.totalNanos)

instance : Add Duration := ⟨add⟩

instance : Sub Duration := ⟨sub⟩

instance : LT Duration := ⟨fun a b => a.totalNanos < b.totalNanos⟩

instance (a b : Duration) : Decidable (a < b) :=
  inferInstanceAs (Decidable (a.totalNanos < b.totalNanos))

theorem totalNanos_ofParts {seconds nanos : Nat}
    (h : seconds + nanos / nanosPerSecond < bound64) :
    (ofParts seconds nanos).totalNanos = seconds * nanosPerSecond + nanos := by
  rw [ofParts, dif_pos h]
  simp only [totalNanos, nanosPerSecond]
  omega

theorem ofParts_eq_max {seconds nanos : Nat}
    (h : ¬seconds + nanos / nanosPerSecond < bound64) : ofParts seconds nanos = max :=
  dif_neg h

theorem totalNanos_sub (a b : Duration) : (a - b).totalNanos = a.totalNanos - b.totalNanos := by
  have hseconds := a.seconds_lt
  have hnanos := a.nanos_lt
  show (ofParts 0 (a.totalNanos - b.totalNanos)).totalNanos = _
  rw [totalNanos_ofParts] <;> simp only [totalNanos, nanosPerSecond, bound64] at * <;> omega

theorem lt_iff {a b : Duration} : a < b ↔ a.totalNanos < b.totalNanos := Iff.rfl

end Duration

end StatAlmanac
