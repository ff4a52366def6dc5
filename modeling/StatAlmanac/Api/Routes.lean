import StatAlmanac.Api.Answer
import StatAlmanac.Api.Batch
import StatAlmanac.Api.Error
import StatAlmanac.Api.Request

/-!
The service: which requests there are and how each is answered. What can be
checked on the request alone is checked before anything is looked up or fetched.
-/

namespace StatAlmanac.Api

open Json

inductive Route where
  | health
  | metrics
  | entity (kind name : List Char)
  | progression (kind name : List Char)
  | evaluate
  | cache
  | sweep

/-- The route of a path. The name of an entity at the end of a path is not empty; elsewhere a
segment may be. -/
def Route.ofSegments? (segments : List (List Char)) : Option Route :=
  match segments.map String.ofList, segments with
  | ["health"], _ => some .health
  | ["metrics"], _ => some .metrics
  | ["entities", _, _], [_, kind, name] => if name.isEmpty then none else some (.entity kind name)
  | ["entities", _, _, "progression"], [_, kind, name, _] => some (.progression kind name)
  | ["evaluate"], _ => some .evaluate
  | ["cache"], _ => some .cache
  | ["cache", "sweep"], _ => some .sweep
  | _, _ => none

def Route.methods : Route → List String
  | .evaluate | .sweep => ["POST"]
  | _ => ["GET", "HEAD"]

/-- Why a request has no JSON answer: a status says it all, or there is an error to tell. -/
inductive Failure where
  | bare (status : Nat)
  | told (e : ApiError)

abbrev Handler := ExceptT Failure Job

def Failure.answer : Failure → Answer
  | .bare status => ⟨status, none⟩
  | .told e => ⟨e.status, some e.toValue⟩

def badRequest : Failure := .bare 400

def told {α ε : Type} (wrap : ε → ApiError) : Except ε α → Handler α
  | .ok a => return a
  | .error e => throw (.told (wrap e))

def orBad {α : Type} : Option α → Handler α
  | some a => return a
  | none => throw badRequest

/-- The field of a query, which may not come twice. -/
def field (fields : List (String × String)) (name : String) : Handler (Option String) :=
  match fields.filter (·.1 == name) with
  | [] => return none
  | [(_, value)] => return some value
  | _ => throw badRequest

/-- A field that holds a level, or at least a number of 32 bits. -/
def levelField (fields : List (String × String)) (name : String) : Handler (Option Nat) := do
  match ← field fields name with
  | none => return none
  | some value => return some (← orBad (readNatural? bound32 value.toList))

def target (kind name : String) : Handler (Kind × String) := do
  let kind ← told .invalidRequest (Kind.read kind)
  if Text.isAllBlank name.toList then
    throw (.told (.invalidRequest "Entity name cannot be empty"))
  return (kind, name)

def lookUp (a : Almanac) (kind : Kind) (name : String) : Handler EntityStats := do
  told .fetch (← a.entityStats kind name)

def entityStats (a : Almanac) (kind name : List Char) (query : List Char) : Handler Value := do
  let kind ← orBad (decodeSegment? kind)
  let name ← orBad (decodeSegment? name)
  let level ← levelField (queryFields query) "level"
  let (kind, name) ← target kind name
  match level with
  | none => return stats (← lookUp a kind name)
  | some level =>
      let _ ← told .formula (Formula.level level)
      let s ← lookUp a kind name
      return statsAt s level (← told .formula (Formula.calculateForms s.formulas level))

/-- One stat over a range of levels, by default all of them. Of a stat with several forms the first
counts. -/
def entityProgression (a : Almanac) (kind name : List Char) (query : List Char) :
    Handler Value := do
  let kind ← orBad (decodeSegment? kind)
  let name ← orBad (decodeSegment? name)
  let fields := queryFields query
  let stat ← orBad (← field fields "stat")
  let first := (← levelField fields "start").getD firstLevel
  let last := (← levelField fields "end").getD lastLevel
  let (kind, name) ← target kind name
  let low ← told .formula (Formula.level first)
  let high ← told .formula (Formula.level last)
  if high.val < low.val then throw (.told (.formula (.invalidRange first last)))
  let s ← lookUp a kind name
  match (s.formulas.find? stat).bind List.head? with
  | none => throw (.told (.statNotFound s!"{stat} for {s.name}"))
  | some f => return progression s stat f (← told .formula (f.levelRange first last))

def longestBody : Nat := 2 * 1024 * 1024

def evaluateBatch (r : Request) : Handler Value := do
  if !(r.header? "content-type").any isJsonType then throw (.bare 415)
  if longestBody < r.body.length then throw (.bare 413)
  match Batch.read r.body with
  | .error .malformed => throw badRequest
  | .error .mismatch => throw (.bare 422)
  | .ok b =>
      match b.defect? with
      | some reason => throw (.told (.invalidRequest reason))
      | none =>
          let values ← told .formula (Formula.calculateAll b.formulas b.level)
          return evaluation b.level b.formulas values

def Route.handle (a : Almanac) (r : Request) : Route → Handler Value
  | .health => return Api.health (← (Job.now : Job Stamp))
  | .metrics => do
      let summary ← (Job.aside a.cache.summary : Job Summary)
      return Api.metrics (← (Job.metrics : Job Metrics)) summary
  | .entity kind name => entityStats a kind name r.query
  | .progression kind name => entityProgression a kind name r.query
  | .evaluate => evaluateBatch r
  | .cache => do
      let es ← (Job.aside a.cache.entries : Job (List Entry))
      return Api.entries (← (Job.now : Job Stamp)) es
  | .sweep => return Api.sweep (← (Job.aside a.cache.sweep : Job Nat))

/-- The answer to a request. What another site may ask is granted for every path, and the answer to
`HEAD` has no body. -/
def respond (a : Almanac) (r : Request) : Job Answer := do
  if r.method = "OPTIONS" then return ⟨200, none⟩
  match Route.ofSegments? r.segments with
  | none => return ⟨404, none⟩
  | some route =>
      if !route.methods.contains r.method then return ⟨405, none⟩
      let answer := match ← (route.handle a r).run with
        | .ok value => ⟨200, some value⟩
        | .error failure => failure.answer
      return if r.method = "HEAD" then { answer with body := none } else answer

end StatAlmanac.Api
