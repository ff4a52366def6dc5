import StatAlmanac.Time.Duration

/-!
Counters of a service: lookups in the cache, and fetches with their attempts
and the time they took. An event is counted in one go. What counts events has no
upper bound: `2 ^ 64` of them are out of reach of any run. Milliseconds add up
faster, so their sum starts over at 64 bits.
-/

namespace StatAlmanac

structure Metrics where
  requests : Nat := 0
  hits : Nat := 0
  misses : Nat := 0
  successes : Nat := 0
  failures : Nat := 0
  retries : Nat := 0
  latency : Nat := 0
  deriving DecidableEq, Repr

inductive Event where
  | hit
  | miss
  | success (latency : Duration) (retries : Nat)
  | failure (latency : Duration) (retries : Nat)

namespace Metrics

/-- A fetch that has ended. Its time counts in whole milliseconds,
and they are counted in 64 bits. -/
def addFetch (m : Metrics) (latency : Duration) (retries : Nat) : Metrics :=
  { m with
    requests := m.requests + 1
    retries := m.retries + retries
    latency := (m.latency + latency.toMillis) % bound64 }

def add (m : Metrics) : Event → Metrics
  | .hit => { m with hits := m.hits + 1 }
  | .miss => { m with misses := m.misses + 1 }
  | .success latency retries =>
      let m := m.addFetch latency retries
      { m with successes := m.successes + 1 }
  | .failure latency retries =>
      let m := m.addFetch latency retries
      { m with failures := m.failures + 1 }

/-- A share of a total; zero when there is no total. -/
def ratio (part total : Nat) : Float :=
  if total = 0 then 0 else Float.ofNat part / Float.ofNat total

def averageLatency (m : Metrics) : Float := ratio m.latency m.requests

def hitRate (m : Metrics) : Float := ratio m.hits (m.hits + m.misses)

end Metrics

end StatAlmanac
