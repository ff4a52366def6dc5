import StatAlmanac.Cache.Store
import StatAlmanac.Proofs.Table

/-!
What a cache stands for. A shelf is a finite map from keys to what was stored
under them; every call of the cache is answered from it and from the time of
day, and only a `put` and a `sweep` change it.
-/

namespace StatAlmanac

/-- No two stamps are as far apart as the longest lifetime that ends. -/
theorem Stamp.since_lt (a b : Stamp) : a.since b < Entry.longestLifetime := by
  have hfirst := b.firstDay_le
  have hlast := a.le_lastDay
  have hsecond := a.second_lt
  have hnanos := a.nanos_lt
  -- a leap second between them counts for one
  have hleaps : (if b.second < a.second ∧ b.isLeap then 1
      else if a.second < b.second ∧ a.isLeap then -1 else 0 : Int) ≤ 1 := by
    split
    · omega
    · split <;> omega
  simp only [since, Entry.longestLifetime, bound64, secondsPerDay, nanosPerSecond, nanosPerMilli,
    firstDay, lastDay] at *
  omega

/-- A lifetime that is too long to end is longer than any span between stamps, so it needs no case
of its own. -/
theorem Entry.isFresh_iff {e : Entry} {now : Stamp} :
    e.isFresh now ↔ now.since e.storedAt < e.lifetime.totalNanos := by
  have hsince := now.since_lt e.storedAt
  rw [isFresh, span?]
  by_cases hends : e.lifetime.totalNanos ≤ Entry.longestLifetime
  · simp [hends]
  · have hlt : now.since e.storedAt < e.lifetime.totalNanos := by omega
    simp [hends, hlt]

structure Stored where
  sourceName : String
  storedAt : Stamp
  document : Bytes

namespace Stored

def record (s : Stored) : Record := ⟨s.sourceName, s.storedAt, s.document.length⟩

def entry (lifetime : Duration) (key : String) (s : Stored) : Entry :=
  ⟨key, s.sourceName, s.storedAt, s.document.length, lifetime⟩

def isFresh (lifetime : Duration) (now : Stamp) (s : Stored) : Bool :=
  now.since s.storedAt < lifetime.totalNanos

theorem isFresh_entry (lifetime : Duration) (key : String) (now : Stamp) (s : Stored) :
    (s.entry lifetime key).isFresh now = s.isFresh lifetime now := by
  rw [Bool.eq_iff_iff, Entry.isFresh_iff, isFresh, decide_eq_true_iff]
  rfl

end Stored

abbrev Shelf := Table Stored

inductive CacheCall where
  | put (key sourceName : String) (document : Bytes)
  | sweep
  | get (key : String)
  | isFresh (key : String)
  | entry (key : String)
  | entries
  | size
  | summary

inductive CacheAnswer where
  | put (result : Except CacheError Unit)
  | sweep (removed : Nat)
  | get (document : Option Bytes)
  | isFresh (fresh : Bool)
  | entry (e : Option Entry)
  | entries (es : List Entry)
  | size (n : Nat)
  | summary (s : Summary)

namespace Shelf

def sweep (lifetime : Duration) (now : Stamp) (m : Shelf) : Shelf :=
  m.filter (·.isFresh lifetime now)

/-- The answer to a call, and the shelf after it. A summary counts bytes in 64 bits. -/
def answer (lifetime : Duration) (now : Stamp) (m : Shelf) : CacheCall → CacheAnswer × Shelf
  | .put key sourceName document =>
      if Cache.isKey key then (.put (.ok ()), m.insert key ⟨sourceName, now, document⟩)
      else (.put (.error (.invalidKey key)), m)
  | .sweep => (.sweep (m.entries.countP fun e => !e.2.isFresh lifetime now), m.sweep lifetime now)
  | .get key =>
      (.get (((m.find? key).filter (·.isFresh lifetime now)).map Stored.document), m)
  | .isFresh key => (.isFresh ((m.find? key).any (·.isFresh lifetime now)), m)
  | .entry key => (.entry ((m.find? key).map (·.entry lifetime key)), m)
  | .entries => (.entries (m.entries.map fun e => e.2.entry lifetime e.1), m)
  | .size => (.size m.size, m)
  | .summary =>
      (.summary {
        entries := m.size
        fresh := m.entries.countP fun e => e.2.isFresh lifetime now
        bytes := (m.entries.map fun e => e.2.document.length).foldr (· + ·) 0 % bound64 }, m)

def serve (lifetime : Duration) : Shelf → List (Stamp × CacheCall) → List CacheAnswer × Shelf
  | m, [] => ([], m)
  | m, (now, call) :: rest =>
      let served := answer lifetime now m call
      let more := serve lifetime served.2 rest
      (served.1 :: more.1, more.2)

/-- What one call does to the document under `key`. -/
def keep (lifetime : Duration) (key : String) (s : Option Stored) :
    Stamp × CacheCall → Option Stored
  | (now, .put other sourceName document) =>
      if other = key ∧ Cache.isKey key then some ⟨sourceName, now, document⟩ else s
  | (now, .sweep) => s.filter (·.isFresh lifetime now)
  | _ => s

theorem find?_answer (lifetime : Duration) (now : Stamp) (m : Shelf) (call : CacheCall)
    (key : String) :
    (answer lifetime now m call).2.find? key = keep lifetime key (m.find? key) (now, call) := by
  cases call with
  | put other sourceName document =>
      rw [answer, keep]
      by_cases hother : other = key
      · subst hother
        by_cases hkey : Cache.isKey other
        · rw [if_pos hkey, if_pos ⟨rfl, hkey⟩, Table.find?_insert_self]
        · rw [if_neg hkey, if_neg fun h : other = other ∧ _ => hkey h.2]
      · rw [if_neg fun h : other = key ∧ _ => hother h.1]
        by_cases hkey : Cache.isKey other
        · rw [if_pos hkey, Table.find?_insert_of_ne _ _ (Ne.symm hother)]
        · rw [if_neg hkey]
  | sweep => exact Table.find?_filter _ m key
  | get | isFresh | entry | entries | size | summary => rfl

/-- What a shelf holds under a key is what the last `put` of that key left,
unless a sweep took it. -/
theorem find?_serve (lifetime : Duration) (m : Shelf) (calls : List (Stamp × CacheCall))
    (key : String) :
    (serve lifetime m calls).2.find? key = calls.foldl (keep lifetime key) (m.find? key) := by
  induction calls generalizing m with
  | nil => rfl
  | cons call rest ih =>
      rw [serve, List.foldl_cons, ← find?_answer]
      exact ih _

end Shelf

end StatAlmanac
