import StatAlmanac.Cache.Store
import StatAlmanac.Job

/-!
A world for jobs to act on: a disk, another side that sends go to, counters,
and clocks. Only pauses take time in it; the time of day stands still. Sweepers
may be at work, which act while others pause or give way. Who comes back from a
pause goes on before a sweep that is due at that very time.
-/

namespace StatAlmanac

structure Sweeper where
  cache : Cache
  /-- Nanoseconds from one sweep to the next. -/
  interval : Nat
  due : Nat
  /-- It is the last one started, which alone can still be stopped. -/
  isLast : Bool

structure World where
  disk : Disk
  now : Stamp
  /-- What comes back for a send, given how many went before it. -/
  remote : Nat → String → Outcome
  /-- What the clock that only goes forward shows after so many nanoseconds of pauses. -/
  reading : Nat → Duration
  elapsed : Nat := 0
  /-- The sends so far and when they went out, the last one first. -/
  sent : List (String × Nat) := []
  disconnects : Nat := 0
  metrics : Metrics := {}
  lastSend : Option Duration := none
  sweepers : List Sweeper := []

/-- Another side that answers from a script as long as it lasts, and then always the same. -/
def scripted (script : List Outcome) (otherwise : Outcome) : Nat → String → Outcome :=
  fun n _ => script.getD n otherwise

namespace World

def change (w : World) : Except DiskFault Disk → Except DiskFault Unit × World
  | .ok disk => (.ok (), { w with disk })
  | .error e => (.error e, w)

def makeFolders (w : World) (path : String) : Except DiskFault Unit × World :=
  ((w.disk.makeFolders path).1, { w with disk := (w.disk.makeFolders path).2 })

def send (w : World) (url : String) : Outcome × World :=
  (w.remote w.sent.length url, { w with sent := (url, w.elapsed) :: w.sent })

def longestPause : Nat := 30 * 365 * 86400 * nanosPerSecond

def pauseTime (length : Duration) : Nat := Nat.min length.totalNanos longestPause

/-- What others do: all that is due before a given time. -/
abbrev Others := Nat → World → World

def nobody : Others := fun _ w => w

def pass (others : Others) (nanos : Nat) (w : World) : World :=
  { others (w.elapsed + nanos) w with elapsed := w.elapsed + nanos }

def giveWay (others : Others) (w : World) : World :=
  { others (w.elapsed + 1) w with elapsed := w.elapsed }

/-- What an effect does when there are others. Gates are open to a job that is alone. -/
def perform (others : Others) (w : World) : (e : Effect) → e.Reply × World
  | .read path => (w.disk.read path, w)
  | .write path content => w.change (w.disk.write path content)
  | .rename source target => w.change (w.disk.rename source target)
  | .remove path => w.change (w.disk.remove path)
  | .makeFolders path => w.makeFolders path
  | .enter _ | .leave _ => ((), w)
  | .now => (w.now, w)
  | .ticks => (w.reading w.elapsed, w)
  | .pause length => ((), w.pass others (pauseTime length))
  | .giveWay => ((), w.giveWay others)
  | .lastSend => (w.lastSend, w)
  | .markSend reading => ((), { w with lastSend := some reading })
  | .send url => w.send url
  | .disconnect => ((), { w with disconnects := w.disconnects + 1 })
  | .count event => ((), { w with metrics := w.metrics.add event })
  | .metrics => (w.metrics, w)

end World

def Job.runWith {α : Type} (others : World.Others) (w : World) : Job α → α × World
  | .done a => (a, w)
  | .step e next => runWith others (w.perform others e).2 (next (w.perform others e).1)

namespace World

def place (s : Sweeper) : List Sweeper → List Sweeper
  | [] => [s]
  | other :: rest => if s.due < other.due then s :: other :: rest else other :: place s rest

/-- Sweeps as often as sweeps are due before the time `limit`, at most `times`. -/
def sweepUntil (limit : Nat) : (times : Nat) → World → World
  | 0, w => w
  | times + 1, w =>
      match w.sweepers with
      | [] => w
      | s :: others =>
          if s.due < limit then
            let swept := (s.cache.sweep.runWith nobody { w with elapsed := s.due }).2
            sweepUntil limit times
              { swept with sweepers := place { s with due := s.due + s.interval } others }
          else w

def sweepsBefore (limit : Nat) (w : World) : Nat :=
  w.sweepers.foldl (fun n s => n + (limit - s.due) / s.interval + 1) 0

def sweeping : Others := fun limit w => sweepUntil limit (w.sweepsBefore limit) w

/-- Starts a sweeper, which first waits. The wait is at least a second. -/
def startSweeper (w : World) (cache : Cache) (seconds : Nat) : World :=
  let interval := pauseTime (.ofSeconds (if seconds = 0 then 1 else seconds))
  let others := w.sweepers.map ({ · with isLast := false })
  { w with sweepers := place ⟨cache, interval, w.elapsed + interval, true⟩ others }

def canStop (w : World) : Bool := w.sweepers.any (·.isLast)

def stopSweeper (w : World) : World := { w with sweepers := w.sweepers.filter (!·.isLast) }

end World

def Job.run {α : Type} (t : Job α) (w : World) : α × World := t.runWith World.sweeping w

end StatAlmanac
