import StatAlmanac.Almanac
import StatAlmanac.Api.Request

/-!
The settings of a service, read from named variables. A variable that is missing
or cannot be read leaves the default.
-/

namespace StatAlmanac

structure Setup where
  base : String := "https://leagueoflegends.fandom.com/wiki"
  /-- Milliseconds. -/
  interval : Nat := 1000
  /-- Seconds. -/
  timeout : Nat := 30
  retries : Nat := 3
  /-- Milliseconds. -/
  delay : Nat := 500
  folder : String := ".cache/wiki_stats"
  /-- Seconds. -/
  lifetime : Nat := 86400
  isEnabled : Bool := true
  listenAt : Nat := 3000
  /-- Seconds. -/
  sweepInterval : Nat := 3600
  deriving DecidableEq, Repr

namespace Setup

/-- A number below `bound`, blanks around it allowed. -/
def readNatural? (bound : Nat) (value : String) : Option Nat :=
  Api.readNatural? bound (Text.trim value.toList)

def readBool? (value : String) : Option Bool :=
  match String.ofList (Text.trim value.toList) with
  | "true" => some true
  | "false" => some false
  | _ => none

def ofVariables (find? : String → Option String) : Setup :=
  let natural (name : String) (bound default : Nat) : Nat :=
    ((find? name).bind (readNatural? bound)).getD default
  let d : Setup := {}
  { base := ((find? "WIKI_BASE_URL").filter fun v => !Text.isAllBlank v.toList).getD d.base
    interval := natural "RATE_LIMIT_MS" bound64 d.interval
    timeout := natural "REQUEST_TIMEOUT" bound64 d.timeout
    retries := natural "MAX_RETRIES" bound32 d.retries
    delay := natural "RETRY_DELAY_MS" bound64 d.delay
    folder := ((find? "CACHE_DIR").filter fun v => !v.isEmpty).getD d.folder
    lifetime := natural "CACHE_TTL" bound64 d.lifetime
    isEnabled := ((find? "CACHE_ENABLED").bind readBool?).getD d.isEnabled
    listenAt := natural "SERVER_PORT" bound16 d.listenAt
    sweepInterval := natural "SWEEP_INTERVAL" bound64 d.sweepInterval }

def plan (s : Setup) : FetchPlan :=
  { interval := .ofMillis s.interval
    timeout := .ofSeconds s.timeout
    retries := s.retries
    delay := .ofMillis s.delay }

def cache (s : Setup) : Cache := ⟨s.folder, .ofSeconds s.lifetime, s.isEnabled⟩

def almanac (s : Setup) : Almanac := .ofBase s.base s.plan s.cache

end Setup

end StatAlmanac
