import StatAlmanac.Api.Routes
import StatAlmanac.Proofs.Almanac.Tally

/-!
Which requests ask for a page. A request does if it passes all checks that can be
made on it alone; then its page is looked up once, and otherwise nothing is looked
up or fetched.
-/

namespace StatAlmanac.Api

/-! ### The page of a request -/

def field? (fields : List (String × String)) (name : String) : Option (Option String) :=
  match fields.filter (·.1 == name) with
  | [] => some none
  | [(_, value)] => some (some value)
  | _ => none

def levelField? (fields : List (String × String)) (name : String) : Option (Option Nat) := do
  match ← field? fields name with
  | none => return none
  | some value => return some (← readNatural? bound32 value.toList)

def target? (kind name : String) : Option (Kind × String) := do
  let kind ← (Kind.read kind).toOption
  if Text.isAllBlank name.toList then none
  return (kind, name)

def entityPage? (kind name query : List Char) : Option (Kind × String) := do
  let kind ← decodeSegment? kind
  let name ← decodeSegment? name
  let level ← levelField? (queryFields query) "level"
  let page ← target? kind name
  match level with
  | none => return page
  | some level =>
      let _ ← (Formula.level level).toOption
      return page

def progressionPage? (kind name query : List Char) : Option (Kind × String) := do
  let kind ← decodeSegment? kind
  let name ← decodeSegment? name
  let fields := queryFields query
  let _ ← (← field? fields "stat")
  let first := (← levelField? fields "start").getD firstLevel
  let last := (← levelField? fields "end").getD lastLevel
  let page ← target? kind name
  let low ← (Formula.level first).toOption
  let high ← (Formula.level last).toOption
  if high.val < low.val then none
  return page

def Route.page? (query : List Char) : Route → Option (Kind × String)
  | .entity kind name => entityPage? kind name query
  | .progression kind name => progressionPage? kind name query
  | _ => none

def Request.page? (r : Request) : Option (Kind × String) := do
  if r.method = "OPTIONS" then none
  let route ← Route.ofSegments? r.segments
  if !route.methods.contains r.method then none
  route.page? r.query

/-! ### Checks -/

variable {α β ε : Type} {t : Handler α} {f : α → Handler β} {o : Option α}

theorem only_run_bind {P : Effect → Prop} (ht : t.run.Only P) (hf : ∀ a, (f a).run.Only P) :
    (t >>= f).run.Only P := by
  refine Job.only_bind ht fun r => ?_
  cases r with
  | ok a => exact hf a
  | error e => trivial

/-- The handler has no effect, and passes with what `o` holds or fails. -/
inductive Checks : Handler α → Option α → Prop where
  | passes (a : α) : Checks (pure a) (some a)
  | fails (e : Failure) : Checks (throw e) none

theorem checks_orBad (o : Option α) : Checks (orBad o) o := by
  cases o with
  | none => exact .fails badRequest
  | some a => exact .passes a

theorem checks_told (wrap : ε → ApiError) (r : Except ε α) : Checks (told wrap r) r.toOption := by
  cases r with
  | error e => exact .fails (.told (wrap e))
  | ok a => exact .passes a

theorem Checks.bind {g : α → Option β} (ht : Checks t o) (hf : ∀ a, Checks (f a) (g a)) :
    Checks (t >>= f) (o.bind g) := by
  cases ht with
  | passes a => exact hf a
  | fails e => exact .fails e

theorem Checks.only {P : Effect → Prop} (h : Checks t o) : t.run.Only P := by
  cases h <;> trivial

theorem checks_field (fields : List (String × String)) (name : String) :
    Checks (field fields name) (field? fields name) := by
  rw [field, field?]
  generalize fields.filter (·.1 == name) = found
  match found with
  | [] => exact .passes none
  | [(_, value)] => exact .passes (some value)
  | _ :: _ :: _ => exact .fails badRequest

theorem checks_levelField (fields : List (String × String)) (name : String) :
    Checks (levelField fields name) (levelField? fields name) := by
  refine (checks_field fields name).bind fun value => ?_
  cases value with
  | none => exact .passes none
  | some value => exact (checks_orBad _).bind fun level => .passes (some level)

theorem checks_target (kind name : String) : Checks (target kind name) (target? kind name) := by
  rw [target, target?]
  refine (checks_told _ _).bind fun kind => ?_
  cases Text.isAllBlank name.toList with
  | true => exact .fails _
  | false => exact .passes (kind, name)

/-! ### Lookups -/

open Tally

/-- The handler looks a page up if `page` says so, and does nothing else that is counted. -/
structure LooksUp (t : Handler α) (page : Option (Kind × String)) : Prop where
  abides : t.run.Abides counting 0 fun _ => Balanced (if page.isSome then 1 else 0)

theorem looksUp_none (h : t.run.Only Uncounted) : LooksUp t none := by
  refine ⟨(counts_nothing h (Nat.le_refl _)).mono ?_⟩
  rintro - s rfl
  exact balanced_zero

theorem LooksUp.check {g : α → Option (Kind × String)} (ht : Checks t o)
    (hf : ∀ a, LooksUp (f a) (g a)) : LooksUp (t >>= f) (o.bind g) := by
  cases ht with
  | passes a => exact hf a
  | fails e => exact ⟨.pure balanced_zero⟩

theorem lookUp_run (a : Almanac) (kind : Kind) (name : String) :
    (lookUp a kind name).run = a.fetchDocument kind name >>= fun r =>
      (told .fetch (r.map (Almanac.statsOf kind))).run := by
  simp [lookUp, Almanac.entityStats, ExceptT.run_bind]

theorem looksUp_bind (a : Almanac) (page : Kind × String) {f : EntityStats → Handler β}
    (hf : ∀ s, (f s).run.Only Uncounted) :
    LooksUp (lookUp a page.1 page.2 >>= f) (some page) := by
  constructor
  rw [ExceptT.run_bind, lookUp_run, bind_assoc]
  refine (counts_fetchDocument a page.1 page.2).bind fun r s hs => ?_
  have hrest : (told .fetch (r.map (Almanac.statsOf page.1)) >>= f).run.Only Uncounted :=
    only_run_bind (checks_told _ _).only hf
  refine (counts_nothing hrest hs.fetches.ge).mono ?_
  rintro - s' rfl
  exact hs

theorem looksUp_entityStats (a : Almanac) (kind name query : List Char) :
    LooksUp (entityStats a kind name query) (entityPage? kind name query) := by
  refine .check (checks_orBad _) fun kind => .check (checks_orBad _) fun name => ?_
  refine .check (checks_levelField _ _) fun level => .check (checks_target kind name) ?_
  rintro ⟨kind, name⟩
  cases level with
  | none => exact looksUp_bind a (kind, name) fun _ => trivial
  | some level =>
      refine .check (checks_told _ _) fun _ => looksUp_bind a (kind, name) fun s => ?_
      exact only_run_bind (checks_told _ _).only fun _ => trivial

theorem looksUp_entityProgression (a : Almanac) (kind name query : List Char) :
    LooksUp (entityProgression a kind name query) (progressionPage? kind name query) := by
  refine .check (checks_orBad _) fun kind => .check (checks_orBad _) fun name => ?_
  refine .check (checks_field _ _) fun stat => .check (checks_orBad _) fun stat => ?_
  refine .check (checks_levelField _ _) fun first => .check (checks_levelField _ _) fun last => ?_
  refine .check (checks_target kind name) ?_
  rintro ⟨kind, name⟩
  refine .check (checks_told _ _) fun low => .check (checks_told _ _) fun high => ?_
  by_cases hrange : high.val < low.val
  · simp only [hrange, if_true]
    exact looksUp_none trivial
  · simp only [hrange, if_false]
    refine looksUp_bind a (kind, name) fun s => ?_
    split
    · trivial
    · exact only_run_bind (checks_told _ _).only fun _ => trivial

theorem only_evaluateBatch (r : Request) {P : Effect → Prop} : (evaluateBatch r).run.Only P := by
  rw [evaluateBatch]
  cases (r.header? "content-type").any isJsonType with
  | false => trivial
  | true =>
      by_cases hlong : longestBody < r.body.length
      · simp only [hlong, if_true]
        trivial
      · simp only [hlong, if_false]
        cases Batch.read r.body with
        | error fault => cases fault <;> trivial
        | ok b =>
            simp only [Bool.not_true, Bool.false_eq_true, if_false]
            cases b.defect? with
            | some reason => trivial
            | none => exact only_run_bind (checks_told _ _).only fun _ => trivial

theorem only_run_lift {P : Effect → Prop} {s : Job α} (h : s.Only P) :
    (liftM s : Handler α).run.Only P := Job.only_bind h fun _ => trivial

theorem looksUp_handle (a : Almanac) (r : Request) (route : Route) :
    LooksUp (route.handle a r) (route.page? r.query) := by
  cases route with
  | entity kind name => exact looksUp_entityStats a kind name r.query
  | progression kind name => exact looksUp_entityProgression a kind name r.query
  | evaluate => exact looksUp_none (only_evaluateBatch r)
  | health =>
      exact looksUp_none (only_run_bind (only_run_lift (Job.only_act rfl)) fun _ => trivial)
  | metrics =>
      have hsummary : a.cache.summary.Only Uncounted :=
        Job.only_mono a.cache.only_summary fun _ => uncounted_of_isLook
      refine looksUp_none (only_run_bind (only_run_lift (Job.only_aside rfl hsummary)) fun _ => ?_)
      exact only_run_bind (only_run_lift (Job.only_act rfl)) fun _ => trivial
  | cache =>
      have hentries : a.cache.entries.Only Uncounted :=
        Job.only_mono a.cache.only_entries fun _ => uncounted_of_isLook
      refine looksUp_none (only_run_bind (only_run_lift (Job.only_aside rfl hentries)) fun _ => ?_)
      exact only_run_bind (only_run_lift (Job.only_act rfl)) fun _ => trivial
  | sweep =>
      have hsweep : a.cache.sweep.Only Uncounted :=
        Job.only_mono a.cache.only_sweep fun _ => uncounted_of_isCacheWork
      exact looksUp_none
        (only_run_bind (only_run_lift (Job.only_aside rfl hsweep)) fun _ => trivial)

/-- A request looks its page up, if it asks for one, and nothing else that it does is counted. -/
theorem counts_respond (a : Almanac) (r : Request) :
    (respond a r).Abides counting 0 fun _ s => Balanced (if r.page?.isSome then 1 else 0) s := by
  rw [respond, Request.page?]
  by_cases hoptions : r.method = "OPTIONS"
  · simp only [hoptions, if_true]
    exact .pure balanced_zero
  · simp only [hoptions, if_false]
    cases Route.ofSegments? r.segments with
    | none => exact .pure balanced_zero
    | some route =>
        simp only [Option.bind_eq_bind, Option.bind_some]
        cases route.methods.contains r.method with
        | false => exact .pure balanced_zero
        | true =>
            refine (looksUp_handle a r route).abides.bind fun result s hs => ?_
            cases result with
            | ok value => exact .pure hs
            | error failure => exact .pure hs

end StatAlmanac.Api
