import StatAlmanac.Fetch.Plan
import StatAlmanac.Job

/-!
Fetching a page. Each attempt first waits for its turn to send. A passing
failure is followed by a longer and longer wait and another attempt, as long as
the plan allows; everything else ends the fetch, which is then counted once.
-/

namespace StatAlmanac.Fetch

/-- Waits until the last send is `interval` ago, and marks the next one. Nobody else passes the gate
while waiting goes on. -/
def pace (interval : Duration) : Job Unit := .inside .pacer do
  match ← Job.lastSend with
  | none => pure ()
  | some last =>
      let elapsed := (← Job.ticks) - last
      if elapsed < interval then Job.pause (interval - elapsed)
  Job.markSend (← Job.ticks)

/-- The result of a fetch that this outcome ends, or the failure that another attempt may mend. -/
def settle (url : String) : Outcome → Except Passing (Except FetchError Bytes)
  | .error failure => .error failure
  | .ok response =>
      match Verdict.ofStatus response.status with
      | .success => .ok (.ok response.body)
      | .notFound => .ok (.error (.notFound url))
      | .rejected => .ok (.error (.rejected url response.status))
      | .passing => .error (.status response.status)

/-- Attempts until one settles the matter or `left` further ones have failed, with the number of the
last attempt. -/
def attempts (p : FetchPlan) (url : String) (left attempt : Nat) :
    Job (Except FetchError Bytes × Nat) := do
  pace p.interval
  match settle url (← Job.send url) with
  | .ok result => return (result, attempt)
  | .error last =>
      match left with
      | 0 => return (.error (.exhausted url (attempt + 1) last), attempt)
      | left + 1 =>
          Job.pause (p.backoff attempt)
          attempts p url left (attempt + 1)

def fetch (p : FetchPlan) (url : String) : Job (Except FetchError Bytes) := do
  let start ← Job.ticks
  let (result, retries) ← attempts p url p.retries 0
  let latency := (← Job.ticks) - start
  Job.count <| match result with
    | .ok _ => .success latency retries
    | .error _ => .failure latency retries
  return result

end StatAlmanac.Fetch
