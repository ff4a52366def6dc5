import StatAlmanac.Proofs.Fetch.Retry
import StatAlmanac.Proofs.Job.Pact

/-!
What a fetch may do next, at each point of it, whatever it is answered. It waits for
its turn inside the gate, marks its send there, leaves, and sends; behind a send it
pauses and starts over, or ends.
-/

namespace StatAlmanac.Fetch

/-- Where a fetch is while it is in the gate. -/
inductive Phase where
  | entered
  | looked (last : Option Duration)
  | timed (last now : Duration)
  | waited
  | stamping (reading : Duration)
  | marked (reading : Duration)

inductive Stand where
  | fresh
  /-- Before it enters the gate, with so many sends behind it. -/
  | away (sends : Nat)
  /-- In the gate, which it entered at this time. -/
  | inside (sends time : Nat) (phase : Phase)
  /-- Behind the gate, where it is about to send. -/
  | ready (sends : Nat)
  | sent (sends : Nat)
  | over

inductive Leads (p : FetchPlan) : Stand → (e : Effect) → e.Reply → Stand → Prop where
  | start {now : Duration} : Leads p .fresh .ticks now (.away 0)
  | enter {k time : Nat} : Leads p (.away k) (.enter .pacer) () (.inside k time .entered)
  | look {k time : Nat} {last : Option Duration} :
      Leads p (.inside k time .entered) .lastSend last (.inside k time (.looked last))
  | first {k time : Nat} {now : Duration} :
      Leads p (.inside k time (.looked none)) .ticks now (.inside k time (.stamping now))
  | measure {k time : Nat} {last now : Duration} :
      Leads p (.inside k time (.looked (some last))) .ticks now (.inside k time (.timed last now))
  | wait {k time : Nat} {last now : Duration} (h : now - last < p.interval) :
      Leads p (.inside k time (.timed last now)) (.pause (p.interval - (now - last))) ()
        (.inside k time .waited)
  | late {k time : Nat} {last now reading : Duration} (h : ¬now - last < p.interval) :
      Leads p (.inside k time (.timed last now)) .ticks reading (.inside k time (.stamping reading))
  | wake {k time : Nat} {now : Duration} :
      Leads p (.inside k time .waited) .ticks now (.inside k time (.stamping now))
  | mark {k time : Nat} {reading : Duration} :
      Leads p (.inside k time (.stamping reading)) (.markSend reading) ()
        (.inside k time (.marked reading))
  | leave {k time : Nat} {reading : Duration} :
      Leads p (.inside k time (.marked reading)) (.leave .pacer) () (.ready k)
  | send {k : Nat} {url : String} {o : Outcome} : Leads p (.ready k) (.send url) o (.sent (k + 1))
  | backOff {k : Nat} : Leads p (.sent (k + 1)) (.pause (p.backoff k)) () (.away (k + 1))
  | stop {k : Nat} {now : Duration} : Leads p (.sent k) .ticks now .over
  | count {event : Event} : Leads p .over (.count event) () .over

/-- A fetch has the effects that lead on from where it is. -/
def turns (p : FetchPlan) : Pact Stand where
  allows s e := ∃ r s', Leads p s e r s'
  expects := Leads p

variable {p : FetchPlan} {url : String} {k : Nat}

def StampsNext (p : FetchPlan) (k time : Nat) (phase : Phase) : Prop :=
  ∀ now s, Leads p (.inside k time phase) .ticks now s ↔ s = .inside k time (.stamping now)

theorem stampsNext_looked {time : Nat} : StampsNext p k time (.looked none) := by
  intro now s
  constructor
  · intro h
    cases h
    rfl
  · rintro rfl
    exact .first

theorem stampsNext_timed {time : Nat} {last now : Duration} (h : ¬now - last < p.interval) :
    StampsNext p k time (.timed last now) := by
  intro now s
  constructor
  · intro h
    cases h
    rfl
  · rintro rfl
    exact .late h

theorem stampsNext_waited {time : Nat} : StampsNext p k time .waited := by
  intro now s
  constructor
  · intro h
    cases h
    rfl
  · rintro rfl
    exact .wake

theorem abides_stamp {time : Nat} {phase : Phase} (h : StampsNext p k time phase) :
    (Job.ticks >>= Job.markSend).Abides (turns p) (.inside k time phase)
      fun _ s => ∃ r, s = .inside k time (.marked r) := by
  refine .act ⟨.zero, _, (h _ _).2 rfl⟩ fun now s hs => ?_
  obtain rfl := (h now s).1 hs
  refine ⟨⟨(), _, .mark⟩, fun _ s hs => ?_⟩
  cases hs
  exact ⟨now, rfl⟩

theorem abides_pace (k : Nat) :
    (pace p.interval).Abides (turns p) (.away k) fun _ s => s = .ready k := by
  refine .act ⟨(), .inside k 0 .entered, .enter⟩ fun _ s hs => ?_
  cases hs with | @enter _ time => ?_
  refine Job.Abides.bind (Q := fun _ s => ∃ r, s = .inside k time (.marked r)) ?_ ?_
  · refine .act ⟨none, _, .look⟩ fun last s hs => ?_
    cases hs with | look => ?_
    cases last with
    | none => exact abides_stamp stampsNext_looked
    | some last =>
        refine .act ⟨.zero, _, .measure⟩ fun (now : Duration) s hs => ?_
        cases hs with | measure => ?_
        simp only
        by_cases hwait : now - last < p.interval
        · rw [if_pos hwait]
          refine .act ⟨(), _, .wait hwait⟩ fun _ s hs => ?_
          cases hs with | wait => ?_
          exact abides_stamp stampsNext_waited
        · rw [if_neg hwait]
          exact abides_stamp (stampsNext_timed hwait)
  · rintro _ _ ⟨r, rfl⟩
    refine .act ⟨(), _, .leave⟩ fun _ s hs => ?_
    cases hs
    rfl

theorem abides_send (url : String) (k : Nat) :
    (do pace p.interval; Job.send url).Abides (turns p) (.away k)
      fun _ s => s = Stand.sent (k + 1) := by
  refine (abides_pace k).bind ?_
  rintro _ _ rfl
  refine ⟨⟨.error .timeout, _, .send⟩, fun o s hs => ?_⟩
  cases hs
  rfl

theorem abides_attempts (url : String) (left k : Nat) :
    (attempts p url left k).Abides (turns p) (.away k) fun _ s => ∃ k, s = .sent k := by
  induction left generalizing k with
  | zero =>
      rw [attempts_eq]
      refine (abides_send url k).bind ?_
      rintro o _ rfl
      rw [follow]
      cases settle url o with
      | ok result => exact .pure ⟨k + 1, rfl⟩
      | error last => exact .pure ⟨k + 1, rfl⟩
  | succ left ih =>
      rw [attempts_eq]
      refine (abides_send url k).bind ?_
      rintro o _ rfl
      rw [follow]
      cases settle url o with
      | ok result => exact .pure ⟨k + 1, rfl⟩
      | error last =>
          refine .act ⟨(), _, .backOff⟩ fun _ s hs => ?_
          cases hs
          exact ih (k + 1)

theorem abides_fetch (p : FetchPlan) (url : String) :
    (fetch p url).Abides (turns p) .fresh fun _ s => s = .over := by
  rw [fetch_eq]
  refine .act ⟨.zero, _, .start⟩ fun start s hs => ?_
  cases hs
  refine (abides_attempts url p.retries 0).bind ?_
  rintro result _ ⟨k, rfl⟩
  refine .act ⟨.zero, _, .stop⟩ fun stop s hs => ?_
  cases hs
  refine .act ⟨(), _, .count⟩ fun _ s hs => ?_
  cases hs
  rfl

end StatAlmanac.Fetch
