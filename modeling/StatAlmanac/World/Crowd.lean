import StatAlmanac.Fetch.Attempts
import StatAlmanac.World.Basic

/-!
Several jobs at once. They take turns in the order in which they got ready; a
turn lasts until its job is done, pauses, gives way, or finds a gate taken. Who waits for a
gate gets it in order of arrival. Time goes by when nobody is ready.
-/

namespace StatAlmanac

structure Crowd (α : Type) where
  world : World
  ready : List (Nat × Job α)
  /-- Pausing jobs and when they go on, the next one first. -/
  pausing : List (Nat × Nat × Job α) := []
  /-- Jobs that wait for a gate, the first to come first. -/
  waiting : List (Gate × Nat × Job α) := []
  taken : List Gate := []
  finished : List (Nat × α) := []

namespace Crowd

variable {α : Type}

def insertPause (entry : Nat × Nat × Job α) : List (Nat × Nat × Job α) → List (Nat × Nat × Job α)
  | [] => [entry]
  | other :: rest =>
      if entry.1 < other.1 then entry :: other :: rest else other :: insertPause entry rest

/-- Opens a gate, or hands it to the first job that waits for it. -/
def openGate (c : Crowd α) (gate : Gate) : Crowd α :=
  match c.waiting.find? (·.1 = gate) with
  | some (_, job) =>
      { c with
        ready := c.ready ++ [job]
        waiting := c.waiting.eraseP (·.1 = gate) }
  | none => { c with taken := c.taken.erase gate }

def advance (n : Nat) (c : Crowd α) : Job α → Crowd α
  | .done a => { c with finished := c.finished ++ [(n, a)] }
  | .step (.enter gate) next =>
      if gate ∈ c.taken then { c with waiting := c.waiting ++ [(gate, n, next ())] }
      else advance n { c with taken := gate :: c.taken } (next ())
  | .step (.leave gate) next => advance n (c.openGate gate) (next ())
  | .step (.pause length) next =>
      if length = .zero then advance n c (next ())
      else
        let entry := (c.world.elapsed + World.pauseTime length, n, next ())
        { c with pausing := insertPause entry c.pausing }
  | .step .giveWay next =>
      let world := c.world.giveWay World.sweeping
      { c with world, ready := c.ready ++ [(n, next ())] }
  | .step e next =>
      let (r, world) := c.world.perform World.sweeping e
      advance n { c with world } (next r)

def wake (c : Crowd α) : Crowd α :=
  match c.pausing with
  | [] => c
  | (time, _) :: _ =>
      { c with
        world := c.world.pass World.sweeping (time - c.world.elapsed)
        ready := (c.pausing.takeWhile (·.1 = time)).map (·.2)
        pausing := c.pausing.dropWhile (·.1 = time) }

def run : (turns : Nat) → Crowd α → Crowd α
  | 0, c => c
  | turns + 1, c =>
      match c.ready, c.pausing with
      | (n, job) :: ready, _ => run turns (advance n { c with ready } job)
      | [], _ :: _ => run turns c.wake
      | [], [] => c

def ofJobs (jobs : List (Job α)) (world : World) : Crowd α :=
  { world, ready := (List.range jobs.length).zip jobs }

def results (c : Crowd α) (size : Nat) : List (Option α) :=
  (List.range size).map fun n => c.finished.lookup n

end Crowd

/-- Turns that the attempts of one fetch take at most: each may wait at the gate, pause before the
send and pause behind it, and is woken after each. -/
def turnsOfFetch (p : FetchPlan) : Nat := 6 * (p.retries + 1) + 1

/-- Starts fetches at one time and runs them to their end, waiting for them on the side. -/
def fetchTogether (p : FetchPlan) (urls : List String) (w : World) :
    List (Option (Except FetchError Bytes)) × World :=
  let crowd :=
    Crowd.run (urls.length * turnsOfFetch p)
      (.ofJobs (urls.map (Fetch.fetch p)) (w.giveWay World.sweeping))
  (crowd.results urls.length, crowd.world)

end StatAlmanac
