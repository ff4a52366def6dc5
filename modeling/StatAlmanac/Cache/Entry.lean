import StatAlmanac.Cache.Record

/-!
Entries of the cache: a record together with how long it stays fresh. A
lifetime that is too long to be measured in milliseconds never ends.
-/

namespace StatAlmanac

structure Entry where
  key : String
  sourceName : String
  storedAt : Stamp
  size : Nat
  lifetime : Duration
  deriving DecidableEq

namespace Entry

def ofRecord (key : String) (r : Record) (lifetime : Duration) : Entry :=
  ⟨key, r.sourceName, r.storedAt, r.size, lifetime⟩

/-- The longest lifetime that ends: as many milliseconds as a signed 64-bit number holds. -/
def longestLifetime : Nat := (bound64 / 2 - 1) * nanosPerMilli

def span? (e : Entry) : Option Nat :=
  if e.lifetime.totalNanos ≤ longestLifetime then some e.lifetime.totalNanos else none

/-- The entry is younger than its lifetime. One from the future is. -/
def isFresh (e : Entry) (now : Stamp) : Bool :=
  e.span?.all fun span => now.since e.storedAt < span

/-- When freshness ends, if that is a time that has a stamp. -/
def expiresAt? (e : Entry) : Option Stamp := do
  let _ ← e.span?
  e.storedAt.after? e.lifetime

def remaining (e : Entry) (now : Stamp) : Duration :=
  e.expiresAt?.elim .zero fun t => .ofNanos (t.since now).toNat

end Entry

/-- A summary of entries. The bytes are counted in 64 bits. -/
structure Summary where
  entries : Nat
  fresh : Nat
  bytes : Nat
  deriving DecidableEq, Repr

namespace Summary

def ofEntries (now : Stamp) (es : List Entry) : Summary :=
  ⟨es.length, es.countP (·.isFresh now), (es.map Entry.size).foldr (· + ·) 0 % bound64⟩

def stale (s : Summary) : Nat := s.entries - s.fresh

end Summary

end StatAlmanac
