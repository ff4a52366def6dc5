import StatAlmanac.Disk
import StatAlmanac.Fetch.Metrics
import StatAlmanac.Fetch.Outcome
import StatAlmanac.Time.Stamp

/-!
Jobs: programs whose steps act on the world outside. A job is done, or it has
an effect and goes on with the reply. What an effect does is not said here; who
runs a job decides that, and also how the steps of several jobs mix.
-/

namespace StatAlmanac

inductive Gate where
  | index
  | pacer
  deriving DecidableEq, Repr

inductive Effect where
  | read (path : String)
  | write (path : String) (content : Bytes)
  | rename (source target : String)
  | remove (path : String)
  | makeFolders (path : String)
  | enter (gate : Gate)
  | leave (gate : Gate)
  | now
  /-- The reading of a clock that only goes forward. -/
  | ticks
  | pause (length : Duration)
  /-- Lets others go first who are ready. -/
  | giveWay
  | lastSend
  | markSend (reading : Duration)
  | send (url : String)
  | disconnect
  | count (event : Event)
  | metrics

def Effect.Reply : Effect → Type
  | .read _ => Except DiskFault Bytes
  | .write _ _ | .rename _ _ | .remove _ | .makeFolders _ => Except DiskFault Unit
  | .enter _ | .leave _ | .pause _ | .giveWay | .markSend _ | .disconnect | .count _ => Unit
  | .now => Stamp
  | .ticks => Duration
  | .lastSend => Option Duration
  | .send _ => Outcome
  | .metrics => Metrics

inductive Job (α : Type) where
  | done (a : α)
  | step (e : Effect) (next : e.Reply → Job α)

namespace Job

variable {α β : Type}

def andThen (t : Job α) (f : α → Job β) : Job β :=
  match t with
  | .done a => f a
  | .step e next => .step e fun r => andThen (next r) f

instance : Monad Job where
  pure := .done
  bind := andThen

def act (e : Effect) : Job e.Reply := .step e .done

def read (path : String) : Job (Except DiskFault Bytes) := act (.read path)

def write (path : String) (content : Bytes) : Job (Except DiskFault Unit) :=
  act (.write path content)

def rename (source target : String) : Job (Except DiskFault Unit) := act (.rename source target)

def remove (path : String) : Job (Except DiskFault Unit) := act (.remove path)

def makeFolders (path : String) : Job (Except DiskFault Unit) := act (.makeFolders path)

def enter (gate : Gate) : Job Unit := act (.enter gate)

def leave (gate : Gate) : Job Unit := act (.leave gate)

def now : Job Stamp := act .now

def ticks : Job Duration := act .ticks

def pause (length : Duration) : Job Unit := act (.pause length)

def giveWay : Job Unit := act .giveWay

def lastSend : Job (Option Duration) := act .lastSend

def markSend (reading : Duration) : Job Unit := act (.markSend reading)

def send (url : String) : Job Outcome := act (.send url)

def disconnect : Job Unit := act .disconnect

def count (event : Event) : Job Unit := act (.count event)

def metrics : Job Metrics := act .metrics

def inside (gate : Gate) (t : Job α) : Job α := do
  enter gate
  let a ← t
  leave gate
  return a

/-- Has a job done on the side: whoever is ready acts before its result is used. -/
def aside (t : Job α) : Job α := do
  let a ← t
  giveWay
  return a

theorem andThen_done (t : Job α) : t.andThen .done = t := by
  induction t with
  | done a => rfl
  | step e next ih => exact congrArg (Job.step e) (funext ih)

theorem andThen_assoc {γ : Type} (t : Job α) (f : α → Job β) (g : β → Job γ) :
    (t.andThen f).andThen g = t.andThen fun a => (f a).andThen g := by
  induction t with
  | done a => rfl
  | step e next ih => exact congrArg (Job.step e) (funext ih)

instance : LawfulMonad Job := .mk' _ andThen_done (fun _ _ => rfl) andThen_assoc

end Job

end StatAlmanac
