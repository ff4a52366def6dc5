import StatAlmanac.Time.Duration

/-!
How pages are fetched: how far apart sends are kept, how long an attempt may
take, how often it is repeated, and how long to wait before that. The wait
doubles from attempt to attempt until the factor reaches 32 bits.
-/

namespace StatAlmanac

structure FetchPlan where
  interval : Duration := .ofSeconds 1
  timeout : Duration := .ofSeconds 30
  retries : Nat := 3
  delay : Duration := .ofMillis 500
  agent : String := "wiki_stats/0.1.0"
  deriving DecidableEq, Repr

namespace FetchPlan

def largestFactor : Nat := bound32 - 1

def factor (attempt : Nat) : Nat := if attempt < 32 then pow2 attempt else largestFactor

/-- The wait behind a failed attempt, the first being attempt 0. -/
def backoff (p : FetchPlan) (attempt : Nat) : Duration := p.delay.scale (factor attempt)

end FetchPlan

end StatAlmanac
