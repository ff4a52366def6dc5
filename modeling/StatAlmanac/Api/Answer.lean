import StatAlmanac.Almanac
import StatAlmanac.Formula.Evaluate
import StatAlmanac.Formula.Json

/-!
Answers, and their bodies: the stat table of an entity with values at a level,
one stat over a range of levels, the values of given formulas, and what there is
to tell about the cache, the counters and the health of the service.
-/

namespace StatAlmanac.Api

open Json

structure Answer where
  status : Nat
  body : Option Value

def ofTable {α : Type} (write : α → Value) (t : Table α) : Value :=
  .object (t.entries.map fun e => (e.1, write e.2))

@[simp] theorem find?_ofTable {α : Type} (write : α → Value) (t : Table α) (name : String)
    (path : List String) :
    (ofTable write t).find? (name :: path) =
      (t.find? name).bind fun a => (write a).find? path := by
  rw [ofTable, Value.find?, Value.member?, Table.lookup_map, Option.bind_map]
  rfl

def statMembers (s : EntityStats) : List (String × Value) := [
  ("kind", .text s.kind.name),
  ("name", .text s.name),
  ("key", .text s.key),
  ("url", .text s.url),
  ("from_cache", .bool s.fromCache),
  ("formulas", ofTable (fun forms => .list (forms.map Formula.toValue)) s.formulas)]

def stats (s : EntityStats) : Value := .object (statMembers s)

def statsAt (s : EntityStats) (level : Nat) (values : Table (List Float)) : Value :=
  .object <| statMembers s ++ [
    ("level", .natural level),
    ("values", ofTable (fun xs => .list (xs.map .real)) values)]

section statsAt

variable (s : EntityStats) (level : Nat) (values : Table (List Float)) (path : List String)

@[simp] theorem find?_statsAt_formulas : (statsAt s level values).find? ("formulas" :: path) =
    (ofTable (fun forms => .list (forms.map Formula.toValue)) s.formulas).find? path :=
  rfl

@[simp] theorem find?_statsAt_level :
    (statsAt s level values).find? ["level"] = some (.natural level) :=
  rfl

@[simp] theorem find?_statsAt_values : (statsAt s level values).find? ("values" :: path) =
    (ofTable (fun xs => .list (xs.map .real)) values).find? path :=
  rfl

end statsAt

def progression (s : EntityStats) (stat : String) (f : Formula) (values : List (Level × Float)) :
    Value :=
  .object [
    ("kind", .text s.kind.name),
    ("name", .text s.name),
    ("stat", .text stat),
    ("formula", f.toValue),
    ("values", .object (values.map fun (l, x) => (String.ofList (Nat.toDigits 10 l.val), .real x)))]

section progression

variable (s : EntityStats) (stat : String) (f : Formula) (values : List (Level × Float))

@[simp] theorem find?_progression_stat :
    (progression s stat f values).find? ["stat"] = some (.text stat) :=
  rfl

@[simp] theorem find?_progression_formula :
    (progression s stat f values).find? ["formula"] = some f.toValue :=
  rfl

@[simp] theorem find?_progression_values :
    (progression s stat f values).find? ["values"] = some (.object
      (values.map fun (l, x) => (String.ofList (Nat.toDigits 10 l.val), .real x))) :=
  rfl

end progression

def skipped (formulas : Table Formula) (values : Table Float) : List String :=
  formulas.names.filter fun name => !values.contains name

def evaluation (level : Nat) (formulas : Table Formula) (values : Table Float) : Value :=
  .object [
    ("level", .natural level),
    ("values", ofTable .real values),
    ("skipped", .list ((skipped formulas values).map .text))]

section evaluation

variable (level : Nat) (formulas : Table Formula) (values : Table Float)

@[simp] theorem find?_evaluation_level :
    (evaluation level formulas values).find? ["level"] = some (.natural level) :=
  rfl

@[simp] theorem find?_evaluation_values : (evaluation level formulas values).find? ["values"] =
    some (.object (values.entries.map fun e => (e.1, .real e.2))) :=
  rfl

@[simp] theorem find?_evaluation_skipped : (evaluation level formulas values).find? ["skipped"] =
    some (.list ((skipped formulas values).map .text)) :=
  rfl

end evaluation

def sweep (removed : Nat) : Value := .object [("removed", .natural removed)]

def writeStamp (s : Stamp) : Value := .text (String.ofList s.write)

def entry (now : Stamp) (e : Entry) : Value :=
  .object [
    ("key", .text e.key),
    ("source_name", .text e.sourceName),
    ("stored_at", writeStamp e.storedAt),
    ("size_bytes", .natural e.size),
    ("valid", .bool (e.isFresh now)),
    ("ttl_remaining_secs", .natural (e.remaining now).seconds)]

def entries (now : Stamp) (es : List Entry) : Value :=
  let summary := Summary.ofEntries now es
  .object [
    ("total_entries", .natural summary.entries),
    ("valid_entries", .natural summary.fresh),
    ("total_bytes", .natural summary.bytes),
    ("entries", .list (es.map (entry now)))]

def metrics (m : Metrics) (summary : Summary) : Value :=
  .object [
    ("total_requests", .natural m.requests),
    ("cache_hits", .natural m.hits),
    ("cache_misses", .natural m.misses),
    ("successes", .natural m.successes),
    ("failures", .natural m.failures),
    ("retries", .natural m.retries),
    ("total_latency_ms", .natural m.latency),
    ("average_latency_ms", .real m.averageLatency),
    ("hit_rate", .real m.hitRate),
    ("cached_entries", .natural summary.entries),
    ("valid_entries", .natural summary.fresh),
    ("cache_bytes", .natural summary.bytes)]

/-- The health of a service that answers at all; the stamp shows its zone in numbers. -/
def health (now : Stamp) : Value :=
  .object [
    ("status", .text "healthy"),
    ("timestamp", .text (String.ofList (now.writeWith "+00:00".toList)))]

end StatAlmanac.Api
