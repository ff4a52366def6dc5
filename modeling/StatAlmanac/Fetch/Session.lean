import StatAlmanac.Fetch.Outcome

/-!
The session that sends go through. It opens with the first send, stays open
whatever comes back, and is closed on request. A session whose agent name cannot
stand in a header never opens. The body of a response is read only when the
status says success.
-/

namespace StatAlmanac

/-- What the other side does with a request. -/
inductive Reception where
  /-- Nobody listens there. -/
  | refused
  /-- The connection ends without an answer. -/
  | dropped
  /-- No answer comes in time. -/
  | stalled
  /-- An answer whose body lacks `missing` bytes of its announced length, and that holds the
  connection open after the last byte if `holds`. -/
  | answered (response : Response) (missing : Nat) (holds : Bool)

def Reception.outcome : Reception → Outcome
  | .refused => .error (.connect "refused")
  | .dropped => .error (.connect "dropped")
  | .stalled => .error .timeout
  | .answered response missing holds =>
      if Verdict.ofStatus response.status ≠ .success then .ok ⟨response.status, []⟩
      else if missing = 0 then .ok response
      else if holds then .error .timeout
      else .error (.body "incomplete")

structure Session where
  agent : String
  isOpen : Bool := false

namespace Session

/-- Header text holds no control character but the tab. -/
def isHeaderChar (c : Char) : Bool := c == '\t' || 0x20 ≤ c.toNat && c.toNat != 0x7F

def canOpen (s : Session) : Bool := s.isOpen || s.agent.toList.all isHeaderChar

/-- Sends a request that is received as `r`. -/
def send (s : Session) (r : Reception) : Outcome × Session :=
  if s.canOpen then (r.outcome, { s with isOpen := true })
  else (.error (.connect "no session"), s)

def close (s : Session) : Session := { s with isOpen := false }

end Session

end StatAlmanac
