import StatAlmanac.Proofs.Api.Pages
import StatAlmanac.Proofs.Formula.Levels

/-!
When a request for a page is refused. All that makes it a bad one is found before
anything is done, and what is found later is the fault of the page or of the other
side. So a bad request leaves no trace, and a request whose page is looked up is
not a bad one.
-/

namespace StatAlmanac.Api

variable {α β : Type} {a : Almanac} {t : Handler α} {o : Option α} {f : α → Handler β}
  {r : Request} {player : Player}

/-! ### Checks of the request -/

/-- The handler passes with what `o` holds or refuses a bad request, and has no effect. -/
structure Guards (t : Handler α) (o : Option α) : Prop where
  checks : Checks t o
  isBad : ∀ e, t = throw e → e.answer.status = 400

theorem Guards.bind {g : α → Option β} (ht : Guards t o) (hf : ∀ a, Guards (f a) (g a)) :
    Guards (t >>= f) (o.bind g) := by
  refine ⟨ht.checks.bind fun a => (hf a).checks, fun e he => ?_⟩
  obtain ⟨hchecks, hbad⟩ := ht
  cases hchecks with
  | passes a => exact (hf a).isBad e he
  | fails e' =>
      obtain rfl : e' = e := by
        cases he
        rfl
      exact hbad e' rfl

theorem guards_pure (a : α) : Guards (pure a) (some a) := ⟨.passes a, by rintro e ⟨⟩⟩

theorem guards_throw {e : Failure} (h : e.answer.status = 400) :
    Guards (throw e : Handler α) none := by
  refine ⟨.fails e, fun e' he => ?_⟩
  cases he
  exact h

theorem guards_orBad (o : Option α) : Guards (orBad o) o := by
  cases o with
  | none => exact guards_throw rfl
  | some a => exact guards_pure a

theorem guards_told {ε : Type} {wrap : ε → ApiError} (h : ∀ e, (wrap e).status = 400)
    (r : Except ε α) : Guards (told wrap r) r.toOption := by
  cases r with
  | error e => exact guards_throw (h e)
  | ok a => exact guards_pure a

theorem guards_field (fields : List (String × String)) (name : String) :
    Guards (field fields name) (field? fields name) := by
  rw [field, field?]
  generalize fields.filter (·.1 == name) = found
  cases found with
  | nil => exact guards_pure none
  | cons first rest =>
      cases rest with
      | nil => exact guards_pure (some first.2)
      | cons second rest => exact guards_throw rfl

theorem guards_levelField (fields : List (String × String)) (name : String) :
    Guards (levelField fields name) (levelField? fields name) := by
  refine (guards_field fields name).bind fun value => ?_
  cases value with
  | none => exact guards_pure none
  | some value => exact (guards_orBad _).bind fun level => guards_pure (some level)

theorem guards_target (kind name : String) : Guards (target kind name) (target? kind name) := by
  rw [target, target?]
  refine (guards_told (fun _ => rfl) _).bind fun kind => ?_
  cases Text.isAllBlank name.toList with
  | true => exact guards_throw rfl
  | false => exact guards_pure (kind, name)

theorem guards_level (n : Nat) :
    Guards (told .formula (Formula.level n)) (Formula.level n).toOption := by
  rw [Formula.level]
  cases Level.ofNat? n with
  | none => exact guards_throw rfl
  | some l => exact guards_pure l

theorem eq_ok_of_toOption {ε : Type} {r : Except ε α} {a : α} (h : r.toOption = some a) :
    r = .ok a := by
  cases r with
  | error e => cases h
  | ok b => exact congrArg _ (Option.some.inj h)

/-! ### How a request for a page goes -/

/-- A request for a page is refused as a bad one and has no effect, or the page is looked up, and
`Rest` says what comes of the stats that it has. -/
inductive Goes (a : Almanac) (Rest : EntityStats → Except Failure α → Prop) :
    Handler α → Option (Kind × String) → Prop where
  | refused {e : Failure} : e.answer.status = 400 → Goes a Rest (throw e) none
  | lookedUp (page : Kind × String) {rest : EntityStats → Handler α} :
      (∀ s, ∃ result, (rest s).run = pure result ∧ Rest s result) →
      Goes a Rest (lookUp a page.1 page.2 >>= rest) (some page)

theorem Goes.check {Rest : EntityStats → Except Failure β → Prop} {g : α → Option (Kind × String)}
    (ht : Guards t o) (hf : ∀ x, o = some x → Goes a Rest (f x) (g x)) :
    Goes a Rest (t >>= f) (o.bind g) := by
  obtain ⟨hchecks, hbad⟩ := ht
  cases hchecks with
  | passes x => exact hf x rfl
  | fails e => exact .refused (hbad e rfl)

def statsFor (level : Option Nat) (s : EntityStats) : Handler Json.Value :=
  match level with
  | none => return stats s
  | some level => return statsAt s level (← told .formula (Formula.calculateForms s.formulas level))

theorem goes_entityStats_of {Rest : EntityStats → Except Failure Json.Value → Prop}
    {kind name query : List Char} (a : Almanac)
    (h : ∀ level s, levelField? (queryFields query) "level" = some level →
      (∀ n ∈ level, ∃ l, Formula.level n = .ok l) →
      ∃ result, (statsFor level s).run = pure result ∧ Rest s result) :
    Goes a Rest (entityStats a kind name query) (entityPage? kind name query) := by
  refine .check (guards_orBad _) fun kind _ => .check (guards_orBad _) fun name _ => ?_
  refine .check (guards_levelField _ _) fun level hlevel => .check (guards_target kind name) ?_
  rintro ⟨kind, name⟩ -
  cases level with
  | none => exact .lookedUp (kind, name) fun s => h none s hlevel (by rintro n ⟨⟩)
  | some level =>
      refine .check (guards_level level) fun l hl => .lookedUp (kind, name) fun s => ?_
      refine h (some level) s hlevel fun n hn => ?_
      obtain rfl := Option.some.inj hn
      exact ⟨l, eq_ok_of_toOption hl⟩

theorem goes_entityStats (a : Almanac) (kind name query : List Char) :
    Goes a (fun _ result => ∃ value, result = .ok value) (entityStats a kind name query)
      (entityPage? kind name query) := by
  refine goes_entityStats_of a fun level s _ hvalid => ?_
  cases level with
  | none => exact ⟨_, rfl, _, rfl⟩
  | some level =>
      obtain ⟨l, hl⟩ := hvalid level rfl
      obtain ⟨values, hvalues⟩ := Formula.calculateForms_ok s.formulas hl
      rw [statsFor, hvalues]
      exact ⟨_, rfl, _, rfl⟩

inductive Progressed (query : List Char) (s : EntityStats) : Except Failure Json.Value → Prop where
  | shown (value : Json.Value) : Progressed query s (.ok value)
  | notFound (what : String) : Progressed query s (.error (.told (.statNotFound what)))
  | malformed {stat reason : String} {f : Formula} :
      field? (queryFields query) "stat" = some (some stat) →
      (s.formulas.find? stat).bind List.head? = some f → f.defect? = some reason →
      Progressed query s (.error (.told (.formula (.malformed reason))))

def progressionFor (stat : String) (first last : Nat) (s : EntityStats) : Handler Json.Value :=
  match (s.formulas.find? stat).bind List.head? with
  | none => throw (.told (.statNotFound s!"{stat} for {s.name}"))
  | some f => return progression s stat f (← told .formula (f.levelRange first last))

theorem goes_entityProgression_of {Rest : EntityStats → Except Failure Json.Value → Prop}
    {kind name query : List Char} (a : Almanac)
    (h : ∀ stat first last (low high : Level) s,
      field? (queryFields query) "stat" = some (some stat) →
      levelField? (queryFields query) "start" = some first →
      levelField? (queryFields query) "end" = some last →
      Formula.level (first.getD firstLevel) = .ok low →
      Formula.level (last.getD lastLevel) = .ok high →
      ¬high.val < low.val →
      ∃ result, (progressionFor stat (first.getD firstLevel) (last.getD lastLevel) s).run =
        pure result ∧
        Rest s result) :
    Goes a Rest (entityProgression a kind name query) (progressionPage? kind name query) := by
  refine .check (guards_orBad _) fun kind _ => .check (guards_orBad _) fun name _ => ?_
  refine .check (guards_field _ _) fun stat? hfield => .check (guards_orBad _) fun stat hstat => ?_
  refine .check (guards_levelField _ _) fun first hfirst => ?_
  refine .check (guards_levelField _ _) fun last hlast => .check (guards_target kind name) ?_
  rintro ⟨kind, name⟩ -
  refine .check (guards_level _) fun low hlow => .check (guards_level _) fun high hhigh => ?_
  by_cases hrange : high.val < low.val
  · simp only [hrange, if_true]
    exact .refused rfl
  · simp only [hrange, if_false]
    exact .lookedUp (kind, name) fun s => h stat first last low high s (hstat ▸ hfield) hfirst hlast
      (eq_ok_of_toOption hlow) (eq_ok_of_toOption hhigh) hrange

theorem goes_entityProgression (a : Almanac) (kind name query : List Char) :
    Goes a (Progressed query) (entityProgression a kind name query)
      (progressionPage? kind name query) := by
  refine goes_entityProgression_of a
    fun stat first last low high s hstat _ _ hlow hhigh hrange => ?_
  rw [progressionFor]
  cases hform : (s.formulas.find? stat).bind List.head? with
  | none => exact ⟨_, rfl, .notFound _⟩
  | some f =>
      simp only [f.levelRange_eq hlow hhigh hrange]
      cases hdefect : f.defect? with
      | none => exact ⟨_, rfl, .shown _⟩
      | some reason => exact ⟨_, rfl, .malformed hstat hform hdefect⟩

/-! ### Plays -/

theorem play_lookUp (a : Almanac) (kind : Kind) (name : String) (rest : EntityStats → Handler α)
    (player : Player) (log : List Effect) :
    (lookUp a kind name >>= rest).run.play player log =
      match (a.fetchDocument kind name).play player log with
      | (.error e, log) => (.error (.told (.fetch e)), log)
      | (.ok d, log) => (rest (Almanac.statsOf kind d)).run.play player log := by
  rw [ExceptT.run_bind, lookUp_run, bind_assoc, Job.play_bind]
  cases (a.fetchDocument kind name).play player log with
  | mk result log => cases result <;> rfl

theorem Goes.play_ok {Rest : EntityStats → Except Failure α → Prop} {page : Kind × String}
    {d : Document}
    (h : Goes a Rest t (some page))
    (hd : ((a.fetchDocument page.1 page.2).play player []).1 = .ok d) :
    Rest (Almanac.statsOf page.1 d) (t.run.play player []).1 := by
  cases h with
  | lookedUp page hrest =>
      obtain ⟨result, hrun, hresult⟩ := hrest (Almanac.statsOf page.1 d)
      rw [play_lookUp]
      cases hplay : (a.fetchDocument page.1 page.2).play player [] with
      | mk document log =>
          rw [hplay] at hd
          obtain rfl : document = .ok d := hd
          simp only [hrun]
          exact hresult

/-- A request that has an effect goes on to look its page up, and comes to what the lookup or the
stats of the page come to. -/
theorem Goes.play {Rest : EntityStats → Except Failure α → Prop} {page? : Option (Kind × String)}
    (h : Goes a Rest t page?) (player : Player) :
    (page? = none ∧ (t.run.play player []).2 = []) ∨ ∃ page, page? = some page ∧
      ((∃ e, (t.run.play player []).1 = .error (.told (.fetch e))) ∨
        ∃ d, ((a.fetchDocument page.1 page.2).play player []).1 = .ok d ∧
          Rest (Almanac.statsOf page.1 d) (t.run.play player []).1) := by
  cases h with
  | refused => exact .inl ⟨rfl, rfl⟩
  | lookedUp page hrest =>
      refine .inr ⟨page, rfl, ?_⟩
      cases hresult : ((a.fetchDocument page.1 page.2).play player []).1 with
      | ok d => exact .inr ⟨d, rfl, (Goes.lookedUp page hrest).play_ok hresult⟩
      | error e =>
          refine .inl ⟨e, ?_⟩
          rw [play_lookUp]
          cases hplay : (a.fetchDocument page.1 page.2).play player [] with
          | mk document log =>
              rw [hplay] at hresult
              obtain rfl : document = .error e := hresult
              rfl

theorem play_of_none {s : Job α} (h : s.Only fun _ => False) : (s.play player []).2 = [] := by
  obtain ⟨trace, htrace, hall⟩ := Job.play_of_only player h []
  rw [htrace, List.nil_append]
  exact List.eq_nil_iff_forall_not_mem.2 hall

def statusOf : Except Failure Json.Value → Nat
  | .ok _ => 200
  | .error e => e.answer.status

theorem statusOf_fetch (e : FetchError) :
    statusOf (.error (.told (.fetch e))) = 404 ∨ statusOf (.error (.told (.fetch e))) = 502 := by
  cases e with
  | notFound => exact .inl rfl
  | exhausted => exact .inr rfl
  | rejected => exact .inr rfl

/-- The request asks for the progression of a stat whose first formula on the page holds a number
that is not finite. -/
def AsksForOdd (a : Almanac) (r : Request) (player : Player) : Prop :=
  ∃ kind name page d stat f,
    Route.ofSegments? r.segments = some (.progression kind name) ∧
    progressionPage? kind name r.query = some page ∧
    ((a.fetchDocument page.1 page.2).play player []).1 = .ok d ∧
    field? (queryFields r.query) "stat" = some (some stat) ∧
    ((Almanac.statsOf page.1 d).formulas.find? stat).bind List.head? = some f ∧
    f.isFinite = false

/-- The statuses of a request that is not refused before it has any effect. -/
def IsLate (a : Almanac) (r : Request) (player : Player) (status : Nat) : Prop :=
  status = 200 ∨ status = 404 ∨ status = 502 ∨ status = 422 ∧ AsksForOdd a r player

theorem IsLate.ne_badRequest {status : Nat} (h : IsLate a r player status) : status ≠ 400 := by
  rcases h with rfl | rfl | rfl | ⟨rfl, -⟩ <;> decide

theorem late_entity (a : Almanac) (kind name : List Char) (player : Player) :
    (entityPage? kind name r.query = none ∧
        ((entityStats a kind name r.query).run.play player []).2 = []) ∨
      IsLate a r player (statusOf ((entityStats a kind name r.query).run.play player []).1) := by
  rcases (goes_entityStats a kind name r.query).play player with
    hnone | ⟨page, -, ⟨e, he⟩ | ⟨d, -, value, hvalue⟩⟩
  · exact .inl hnone
  · rw [he]
    exact .inr (.inr ((statusOf_fetch e).imp_right .inl))
  · rw [hvalue]
    exact .inr (.inl rfl)

theorem late_progression {kind name : List Char}
    (hroute : Route.ofSegments? r.segments = some (.progression kind name))
    (player : Player) :
    (progressionPage? kind name r.query = none ∧
        ((entityProgression a kind name r.query).run.play player []).2 = []) ∨
      IsLate a r player
        (statusOf ((entityProgression a kind name r.query).run.play player []).1) := by
  rcases (goes_entityProgression a kind name r.query).play player with
    hnone | ⟨page, hsome, ⟨e, he⟩ | ⟨d, hd, hresult⟩⟩
  · exact .inl hnone
  · rw [he]
    exact .inr (.inr ((statusOf_fetch e).imp_right .inl))
  · right
    generalize ((entityProgression a kind name r.query).run.play player []).1 = result at hresult
    cases hresult with
    | shown => exact .inl rfl
    | notFound => exact .inr (.inl rfl)
    | @malformed stat reason f hstat hform hdefect =>
        have hodd : f.isFinite = false := by
          cases hfinite : f.isFinite with
          | false => rfl
          | true => exact absurd (Formula.defect?_of_isFinite hfinite) (by simp [hdefect])
        exact .inr (.inr (.inr ⟨rfl, kind, name, page, d, stat, f, hroute, hsome, hd, hstat,
          hform, hodd⟩))

theorem play_lift (t : Job α) (f : α → Handler β) (player : Player) (log : List Effect) :
    ((liftM t : Handler α) >>= f).run.play player log =
      (f (t.play player log).1).run.play player (t.play player log).2 := by
  induction t generalizing log with
  | done x => rfl
  | step e next ih => exact ih (player log e) (log ++ [e])

theorem late_handle {route : Route} (hroute : Route.ofSegments? r.segments = some route)
    (player : Player) :
    (route.page? r.query = none ∧ ((route.handle a r).run.play player []).2 = []) ∨
      IsLate a r player (statusOf ((route.handle a r).run.play player []).1) := by
  cases route with
  | entity kind name => exact late_entity a kind name player
  | progression kind name => exact late_progression hroute player
  | evaluate => exact .inl ⟨rfl, play_of_none (only_evaluateBatch r)⟩
  -- What the others tell they tell whatever there is to see.
  | health => exact .inr (.inl rfl)
  | metrics | cache | sweep =>
      right
      left
      rw [Route.handle, play_lift]
      rfl

theorem respond_routed (a : Almanac) {route : Route} (hoptions : r.method ≠ "OPTIONS")
    (hroute : Route.ofSegments? r.segments = some route)
    (hmethod : route.methods.contains r.method) :
    r.page? = route.page? r.query ∧ ∃ answer : Except Failure Json.Value → Answer,
      (∀ result, (answer result).status = statusOf result) ∧
      respond a r = (route.handle a r).run >>= fun result => pure (answer result) := by
  constructor
  · rw [Request.page?, if_neg hoptions, hroute]
    simp only [Option.bind_eq_bind, Option.bind_some, hmethod]
    rfl
  · simp only [respond, hoptions, if_false, hroute, hmethod, Bool.not_true, Bool.false_eq_true]
    refine ⟨_, fun result => ?_, rfl⟩
    by_cases hhead : r.method = "HEAD" <;> cases result <;> simp [hhead, statusOf]

/-- A request that has an effect is not refused as a bad one. -/
theorem late_respond (a : Almanac) (r : Request) (player : Player) :
    (r.page? = none ∧ ((respond a r).play player []).2 = []) ∨
      IsLate a r player ((respond a r).play player []).1.status := by
  by_cases hoptions : r.method = "OPTIONS"
  · simp [respond, Request.page?, hoptions, Job.play_pure]
  · cases hroute : Route.ofSegments? r.segments with
    | none => simp [respond, Request.page?, hoptions, hroute, Job.play_pure]
    | some route =>
        cases hmethod : route.methods.contains r.method with
        | false =>
            rw [respond, Request.page?, if_neg hoptions, if_neg hoptions, hroute]
            simp only [Option.bind_eq_bind, Option.bind_some, hmethod]
            exact .inl ⟨rfl, rfl⟩
        | true =>
            obtain ⟨hpage, answer, hstatus, hrespond⟩ := respond_routed a hoptions hroute hmethod
            rw [hpage, hrespond, Job.play_bind, Job.play_pure, hstatus]
            exact late_handle hroute player

/-- Bad requests have no effect. A request that is refused as a bad one asks for no page, has done
nothing, and leaves the world as it was. A request whose page is looked up, or that has done
anything at all, is answered with 200, 404 or 502, or with 422 if it asks for the progression of a
formula that holds a number that is not finite. -/
theorem badRequest_without_effect (a : Almanac) (r : Request) :
    (∀ player, ((respond a r).play player []).1.status = 400 →
      r.page? = none ∧ ((respond a r).play player []).2 = []) ∧
    (∀ others w, ((respond a r).runWith others w).1.status = 400 →
      ((respond a r).runWith others w).2 = w) ∧
    ∀ player, r.page?.isSome ∨ ((respond a r).play player []).2 ≠ [] →
      IsLate a r player ((respond a r).play player []).1.status := by
  have hrefused : ∀ player, ((respond a r).play player []).1.status = 400 →
      r.page? = none ∧ ((respond a r).play player []).2 = [] := fun player hbad =>
    (late_respond a r player).resolve_right fun hlate => hlate.ne_badRequest hbad
  refine ⟨hrefused, fun others w hbad => ?_, fun player hbegun => ?_⟩
  · have hrun := Job.runWith_eq_play others w (respond a r) []
    rw [show w.after others [] = w from rfl] at hrun
    rw [hrun] at hbad ⊢
    rw [(hrefused _ hbad).2]
    rfl
  · refine (late_respond a r player).resolve_left ?_
    rintro ⟨hpage, hlog⟩
    simp [hpage, hlog] at hbegun

end StatAlmanac.Api
