import StatAlmanac.Proofs.Api.Refusals
import StatAlmanac.Proofs.Formula.Finite
import StatAlmanac.Proofs.Page.Extraction

/-!
A stat of an entity at one level, asked for in two ways. With all stats of the entity
come the values of all its forms that have one; a progression that starts and ends at
the level tells the value of the first form, or which number keeps it from having one.
So the two agree as long as all forms have a value, and only a number that is too
large for a float can leave a form of a page without.
-/

namespace StatAlmanac.Api

open Formula

variable {a : Almanac} {r r' : Request} {page : Kind × String} {n : Nat} {stat : String}
  {player player' : Player} {d d' : Document} {l : Level} {f : Formula} {forms : List Formula}

/-- The request asks for the stats of the page of an entity, with their values at level `n`. -/
structure AsksForValues (r : Request) (page : Kind × String) (n : Nat) : Prop where
  method : r.method = "GET"
  route : ∃ kind name, Route.ofSegments? r.segments = some (.entity kind name) ∧
    entityPage? kind name r.query = some page
  level : levelField? (queryFields r.query) "level" = some (some n)

/-- The request asks for a stat on the page of an entity, from level `n` to level `n`. -/
structure AsksForLevel (r : Request) (page : Kind × String) (stat : String) (n : Nat) : Prop where
  method : r.method = "GET"
  route : ∃ kind name, Route.ofSegments? r.segments = some (.progression kind name) ∧
    progressionPage? kind name r.query = some page
  stat : field? (queryFields r.query) "stat" = some (some stat)
  first : levelField? (queryFields r.query) "start" = some (some n)
  last : levelField? (queryFields r.query) "end" = some (some n)

/-! ### The answers -/

def answerTo : Except Failure Json.Value → Answer
  | .ok value => ⟨200, some value⟩
  | .error failure => failure.answer

theorem play_respond (a : Almanac) {route : Route} (hget : r.method = "GET")
    (hroute : Route.ofSegments? r.segments = some route) (hmethod : route.methods.contains "GET")
    (player : Player) :
    ((respond a r).play player []).1 = answerTo ((route.handle a r).run.play player []).1 := by
  have hrespond :
      respond a r = (route.handle a r).run >>= fun result => pure (answerTo result) := by
    simp only [respond, hget, hroute, hmethod]
    refine congrArg (_ >>= ·) (funext fun result => ?_)
    cases result <;> rfl
  rw [hrespond, Job.play_bind, Job.play_pure]

/-- A body with the forms of a stat and their values at level `n`, if there are any. -/
structure TellsValues (body : Json.Value) (stat : String) (n : Nat) (forms : List Formula)
    (xs : List Float) : Prop where
  level : body.find? ["level"] = some (.natural n)
  formulas : body.find? ["formulas", stat] = some (.list (forms.map Formula.toValue))
  isObject : ∃ members, body.find? ["values"] = some (.object members)
  values : body.find? ["values", stat] =
    if xs.isEmpty then none else some (.list (xs.map .real))

theorem tellsValues_statsAt {s : EntityStats} {values : Table (List Float)} {xs : List Float}
    (hforms : s.formulas.find? stat = some forms)
    (hvalues : values.find? stat = if xs.isEmpty then none else some xs) :
    TellsValues (statsAt s n values) stat n forms xs where
  level := find?_statsAt_level s n values
  formulas := by
    rw [find?_statsAt_formulas, find?_ofTable, hforms]
    rfl
  isObject := ⟨_, find?_statsAt_values s n values []⟩
  values := by
    rw [find?_statsAt_values, find?_ofTable, hvalues]
    cases xs <;> rfl

/-- A body with the value of one form of a stat at one level. -/
structure TellsLevel (body : Json.Value) (stat : String) (n : Nat) (f : Formula) (x : Float) :
    Prop where
  stat : body.find? ["stat"] = some (.text stat)
  formula : body.find? ["formula"] = some f.toValue
  values : body.find? ["values"] =
    some (.object [(String.ofList (Nat.toDigits 10 n), .real x)])

theorem tellsLevel_progression {s : EntityStats} {x : Float} (hl : l.val = n) :
    TellsLevel (progression s stat f [(l, x)]) stat n f x where
  stat := find?_progression_stat s stat f _
  formula := find?_progression_formula s stat f _
  values := by
    rw [find?_progression_values, ← hl]
    rfl

theorem AsksForValues.answer (h : AsksForValues r page n)
    (hd : ((a.fetchDocument page.1 page.2).play player []).1 = .ok d) :
    ∃ l values, Formula.level n = .ok l ∧
      calculateForms (Almanac.statsOf page.1 d).formulas n = .ok values ∧
      ((respond a r).play player []).1 =
        ⟨200, some (statsAt (Almanac.statsOf page.1 d) n values)⟩ := by
  obtain ⟨kind, name, hroute, hpage⟩ := h.route
  let Rest (s : EntityStats) (result : Except Failure Json.Value) : Prop :=
    ∃ l values, Formula.level n = .ok l ∧ calculateForms s.formulas n = .ok values ∧
      result = .ok (statsAt s n values)
  have hgoes : Goes a Rest (entityStats a kind name r.query) (entityPage? kind name r.query) := by
    refine goes_entityStats_of a fun asked s hasked hvalid => ?_
    obtain rfl : some n = asked := Option.some.inj (h.level.symm.trans hasked)
    obtain ⟨l, hl⟩ := hvalid n rfl
    obtain ⟨values, hvalues⟩ := calculateForms_ok s.formulas hl
    rw [statsFor, hvalues]
    exact ⟨_, rfl, l, values, hl, hvalues, rfl⟩
  rw [hpage] at hgoes
  obtain ⟨l, values, hl, hvalues, hresult⟩ := hgoes.play_ok hd
  refine ⟨l, values, hl, hvalues, ?_⟩
  rw [play_respond a h.method hroute rfl, Route.handle, hresult]
  rfl

/-- What a progression over one level comes to. -/
def oneLevel (s : EntityStats) (stat : String) (f : Formula) (l : Level) :
    Except FormulaError Float → Except Failure Json.Value
  | .ok x => .ok (progression s stat f [(l, x)])
  | .error e => .error (.told (.formula e))

theorem AsksForLevel.answer (h : AsksForLevel r page stat n)
    (hd : ((a.fetchDocument page.1 page.2).play player []).1 = .ok d) (hl : Formula.level n = .ok l)
    (hf : ((Almanac.statsOf page.1 d).formulas.find? stat).bind List.head? = some f) :
    ((respond a r).play player []).1 =
      answerTo (oneLevel (Almanac.statsOf page.1 d) stat f l (f.evaluate n)) := by
  obtain ⟨kind, name, hroute, hpage⟩ := h.route
  let Rest (s : EntityStats) (result : Except Failure Json.Value) : Prop :=
    ∀ f, (s.formulas.find? stat).bind List.head? = some f →
      result = oneLevel s stat f l (f.evaluate n)
  have hgoes : Goes a Rest (entityProgression a kind name r.query)
      (progressionPage? kind name r.query) := by
    refine goes_entityProgression_of a
      fun asked first last low high s hasked hfirst hlast _ _ _ => ?_
    obtain rfl : stat = asked := Option.some.inj (Option.some.inj (h.stat.symm.trans hasked))
    obtain rfl : some n = first := Option.some.inj (h.first.symm.trans hfirst)
    obtain rfl : some n = last := Option.some.inj (h.last.symm.trans hlast)
    simp only [progressionFor, Option.getD_some, levelRange_self hl]
    cases hform : (s.formulas.find? stat).bind List.head? with
    | none => exact ⟨_, rfl, fun f hf => by rw [hform] at hf; cases hf⟩
    | some g =>
        refine ⟨oneLevel s stat g l (g.evaluate n), ?_, fun f hf => ?_⟩
        · dsimp only
          cases g.evaluate n <;> rfl
        · obtain rfl := Option.some.inj (hform.symm.trans hf)
          rfl
  rw [hpage] at hgoes
  rw [play_respond a h.method hroute rfl, Route.handle, hgoes.play_ok hd f hf]

theorem AsksForLevel.answer_of_ok {x : Float} (h : AsksForLevel r page stat n)
    (hd : ((a.fetchDocument page.1 page.2).play player []).1 = .ok d) (hl : Formula.level n = .ok l)
    (hf : ((Almanac.statsOf page.1 d).formulas.find? stat).bind List.head? = some f)
    (hx : f.evaluate n = .ok x) :
    ((respond a r).play player []).1 =
      ⟨200, some (progression (Almanac.statsOf page.1 d) stat f [(l, x)])⟩ := by
  rw [h.answer hd hl hf, hx]
  rfl

/-- Without a value there is a number to blame. -/
theorem AsksForLevel.answer_of_error (h : AsksForLevel r page stat n)
    (hd : ((a.fetchDocument page.1 page.2).play player []).1 = .ok d) (hl : Formula.level n = .ok l)
    (hf : ((Almanac.statsOf page.1 d).formulas.find? stat).bind List.head? = some f)
    (hnone : ¬∃ x, f.evaluate n = .ok x) :
    ∃ reason, f.evaluate n = .error (.malformed reason) ∧ ((respond a r).play player []).1 =
      ⟨422, some (.object [("error", .text ("malformed formula: " ++ reason))])⟩ := by
  have hvalue := evaluate_eq (f := f) hl
  cases hdefect : f.defect? with
  | none => exact absurd ⟨_, by rw [hvalue, hdefect]⟩ hnone
  | some reason =>
      rw [hdefect] at hvalue
      refine ⟨reason, hvalue, ?_⟩
      rw [h.answer hd hl hf, hvalue]
      rfl

/-! ### A page with one number -/

theorem evaluate_flat {x : Float} (hl : Formula.level n = .ok l) (hx : x.isFinite = false) :
    (flat x).evaluate n =
      .error (.malformed ("base value " ++ Decimal.oddName x ++ " is not finite")) := by
  have hdefect : (flat x).defect? =
      some ("base value " ++ Decimal.oddName x ++ " is not finite") := by
    have hbase : (flat x).base.isFinite = false := hx
    rw [defect?, hbase]
    rfl
  rw [evaluate_eq hl, hdefect]

def nines (k : Nat) : Fragment.Amount where
  numeral := ⟨List.replicate (k + 1) '9', []⟩
  written :=
    { starts := rfl
      whole := fun c hc => by
        obtain rfl := List.eq_of_mem_replicate hc
        rfl
      groups := fun g hg => by cases hg }
  one_point := Nat.zero_le 1

theorem isFinite_nines {k : Nat} (hk : 308 ≤ k) : (nines k).value.isFinite = false := by
  obtain ⟨m, hm⟩ :
      ∃ m, m = Fragment.decimalValue?.digitsValue ('9' :: List.replicate k '9') := ⟨_, rfl⟩
  have hvalue : (nines k).value = Float.ofScientific m true 0 := by
    have hfilter : (List.replicate (k + 1) '9').filter (· != ',') =
        '9' :: List.replicate k '9' := by
      rw [Fragment.filter_of_isDigit fun c hc => ?_]
      · rfl
      · obtain rfl := List.eq_of_mem_replicate hc
        rfl
    rw [← Binary64.ofScientific_whole, hm, ← hfilter]
    rfl
  have hlow : 9 * 10 ^ k ≤ m := by
    have hdigits : ∀ c ∈ List.replicate k '9', Fragment.isDigit c := fun c hc => by
      obtain rfl := List.eq_of_mem_replicate hc
      rfl
    have hle := @Fragment.le_digitsValue '9' _ hdigits
    rw [List.length_replicate] at hle
    exact hm ▸ hle
  obtain ⟨i, hi⟩ : ∃ i, i = 292 := ⟨_, rfl⟩
  have hpow : 10 ^ 16 * 10 ^ i ≤ 10 ^ k := by
    rw [← pow_add]
    exact Nat.pow_le_pow_right (by norm_num) (by omega)
  have hover := (Binary64.overflow_digits hi).2
  rw [Bool.eq_false_iff, Ne, hvalue, Binary64.isFinite_fraction, pow_zero, Nat.mul_one]
  omega

def healthPage (amount : Fragment.Amount) : Bytes :=
  Page.page [(⟨"Health", ⟨.flat amount, none⟩, by decide⟩ : Page.Row .champion)]

theorem listed_healthPage (amount : Fragment.Amount) :
    (Page.statFormulas .champion (Page.documentText (healthPage amount))).find? "hp" =
      some [.flat amount.value] := by
  have he : ("hp", ["Health", "HP"]) ∈ Kind.champion.labels := by decide
  rw [healthPage, Page.documentText_page, Page.find?_statFormulas]
  exact ⟨List.cons_ne_nil _ _, _, he, Page.findAll_flatText he _⟩

/-- An almanac without a cache, and a world whose other side always sends the same page. -/
def uncached : Almanac := ⟨"https://wiki.test/wiki", {}, { folder := "cache", isEnabled := false }⟩

def serving (body : Bytes) : World :=
  { disk := .empty, now := default, remote := fun _ _ => .ok ⟨200, body⟩, reading := .ofNanos }

theorem play_serving (body : Bytes) :
    ((uncached.fetchDocument .champion "Lux").play ((serving body).player World.nobody) []).1 =
      .ok (uncached.document .champion "Lux" body false) := by
  simp only [Almanac.fetchDocument, Fetch.fetch]
  rw [Fetch.attempts]
  rfl

def valuesOfLux : Request := ⟨"GET", "/entities/champion/Lux?level=5", [], []⟩

def healthOfLux : Request :=
  ⟨"GET", "/entities/champion/Lux/progression?stat=hp&start=5&end=5", [], []⟩

theorem asksForValues_lux : AsksForValues valuesOfLux (.champion, "Lux") 5 where
  method := rfl
  route := ⟨"champion".toList, "Lux".toList, rfl, by with_unfolding_all rfl⟩
  level := by with_unfolding_all rfl

theorem asksForLevel_lux : AsksForLevel healthOfLux (.champion, "Lux") "hp" 5 where
  method := rfl
  route := ⟨"champion".toList, "Lux".toList, rfl, by with_unfolding_all rfl⟩
  stat := by with_unfolding_all rfl
  first := by with_unfolding_all rfl
  last := by with_unfolding_all rfl

/-! ### The agreement -/

/-- Two requests that come to pages with the same body, one for the values of an entity at a level
and one for the progression of a stat that is listed there over just that level. The first is
answered with the values of exactly those forms that have one, in their order, and without the stat
if none has. The second is answered with the value of the first form, which the other answer then
lists first, and with 422 if that form has no value. A form has a value if its base and, with
growth, its coefficient are finite. If no more than 308 digits stand in a row in the text of the
page, all forms have one. -/
theorem values_agree_progression (hr : AsksForValues r page n) (hr' : AsksForLevel r' page stat n)
    (hd : ((a.fetchDocument page.1 page.2).play player []).1 = .ok d)
    (hd' : ((a.fetchDocument page.1 page.2).play player' []).1 = .ok d') (hbody : d'.body = d.body)
    (hforms : (Almanac.statsOf page.1 d).formulas.find? stat = some forms) :
    let s := Almanac.statsOf page.1 d
    let s' := Almanac.statsOf page.1 d'
    let answer := ((respond a r).play player []).1
    let answer' := ((respond a r').play player' []).1
    ∃ (l : Level) (values : Table (List Float)) (f : Formula), l.val = n ∧ forms.head? = some f ∧
      answer = ⟨200, some (statsAt s n values)⟩ ∧
      TellsValues (statsAt s n values) stat n forms (valuesAt forms n) ∧
      ((∃ x, f.evaluate n = .ok x ∧ (valuesAt forms n).head? = some x ∧
          answer' = ⟨200, some (progression s' stat f [(l, x)])⟩ ∧
          TellsLevel (progression s' stat f [(l, x)]) stat n f x) ∨
        ∃ reason, f.evaluate n = .error (.malformed reason) ∧
          answer' = ⟨422, some (.object [("error", .text ("malformed formula: " ++ reason))])⟩) ∧
      (∀ f ∈ forms, (∃ x, f.evaluate n = .ok x) ↔
        f.base.isFinite ∧ (f.hasGrowth → f.coefficient.isFinite)) ∧
      (HasShortNumerals (Page.documentText d.body) → ∃ x xs,
        (statsAt s n values).find? ["values", stat] = some (.list ((x :: xs).map .real)) ∧
        List.Forall₂ (fun f x => f.evaluate n = .ok x) forms (x :: xs) ∧
        answer' = ⟨200, some (progression s' stat f [(l, x)])⟩ ∧
        TellsLevel (progression s' stat f [(l, x)]) stat n f x) := by
  intro s s' answer answer'
  obtain ⟨l, values, hl, hvalues, hanswer⟩ := hr.answer hd
  obtain ⟨hne, hfrom⟩ := isFrom_of_listed hforms
  obtain ⟨f, more, rfl⟩ := List.exists_cons_of_ne_nil hne
  have htells : TellsValues (statsAt s n values) stat n (f :: more) (valuesAt (f :: more) n) :=
    tellsValues_statsAt hforms (find?_calculateForms hl hvalues hforms)
  have hlisted : (s'.formulas.find? stat).bind List.head? = some f := by
    have hsame : s'.formulas = s.formulas :=
      congrArg (Page.statFormulas _ ∘ Page.documentText) hbody
    rw [hsame, hforms]
    rfl
  have hfirst {x : Float} (hx : f.evaluate n = .ok x) :
      answer' = ⟨200, some (progression s' stat f [(l, x)])⟩ ∧
        TellsLevel (progression s' stat f [(l, x)]) stat n f x :=
    ⟨hr'.answer_of_ok hd' hl hlisted hx, tellsLevel_progression (level_val hl)⟩
  refine ⟨l, values, f, level_val hl, rfl, hanswer, htells, ?_,
    fun g hg => (hfrom g hg).evaluate_iff hl, fun hshort => ?_⟩
  · by_cases hvalue : ∃ x, f.evaluate n = .ok x
    · obtain ⟨x, hx⟩ := hvalue
      refine .inl ⟨x, hx, ?_, hfirst hx⟩
      rw [valuesAt_cons hx, List.head?_cons]
    · exact .inr (hr'.answer_of_error hd' hl hlisted hvalue)
  · have hall : ∀ g ∈ f :: more, ∃ x, g.evaluate n = .ok x := fun g hg =>
      (hfrom g hg).evaluate_of_short hl hshort
    obtain ⟨x, hx⟩ := hall f List.mem_cons_self
    have hforall := forall₂_valuesAt hall
    have hvalues := htells.values
    rw [valuesAt_cons hx] at hforall hvalues
    exact ⟨x, _, hvalues, hforall, hfirst hx⟩

theorem values_agree_progression_small :
    let player := (serving (healthPage (nines 2))).player World.nobody
    ∃ (f : Formula) (x : Float) (body body' : Json.Value), f.evaluate 5 = .ok x ∧
      ((respond uncached valuesOfLux).play player []).1 = ⟨200, some body⟩ ∧
      body.find? ["level"] = some (.natural 5) ∧
      body.find? ["formulas", "hp"] = some (.list [f.toValue]) ∧
      body.find? ["values", "hp"] = some (.list [.real x]) ∧
      ((respond uncached healthOfLux).play player []).1 = ⟨200, some body'⟩ ∧
      body'.find? ["stat"] = some (.text "hp") ∧ body'.find? ["formula"] = some f.toValue ∧
      body'.find? ["values"] = some (.object [("5", .real x)]) := by
  intro player
  have hshort : HasShortNumerals (Page.documentText (healthPage (nines 2))) := by
    rw [healthPage, Page.documentText_page]
    exact hasShortNumerals_of_length (by decide)
  obtain ⟨l, values, f, -, hf, hanswer, htells, -, -, hall⟩ :=
    values_agree_progression asksForValues_lux asksForLevel_lux
      (play_serving (healthPage (nines 2))) (play_serving (healthPage (nines 2))) rfl
      (listed_healthPage (nines 2))
  obtain rfl := Option.some.inj hf
  obtain ⟨x, xs, hfind, hforms, hanswer', htells'⟩ := hall hshort
  obtain ⟨hx, hnone⟩ := List.forall₂_cons.1 hforms
  obtain rfl := List.forall₂_nil_left_iff.1 hnone
  exact ⟨_, x, _, _, hx, hanswer, htells.level, htells.formulas, hfind, hanswer', htells'.stat,
    htells'.formula, htells'.values⟩

/-- A number of 309 digits is read as infinity. Its form is listed and has no value. -/
theorem values_without_large :
    let player := (serving (healthPage (nines 308))).player World.nobody
    ∃ (f : Formula) (members : List (String × Json.Value)) (body body' : Json.Value),
      ((respond uncached valuesOfLux).play player []).1 = ⟨200, some body⟩ ∧
      body.find? ["level"] = some (.natural 5) ∧
      body.find? ["formulas", "hp"] = some (.list [f.toValue]) ∧
      body.find? ["values"] = some (.object members) ∧ body.find? ["values", "hp"] = none ∧
      ((respond uncached healthOfLux).play player []).1 = ⟨422, some body'⟩ := by
  intro player
  have hserved := play_serving (healthPage (nines 308))
  obtain ⟨l, values, hl, hvalues, hanswer⟩ := asksForValues_lux.answer hserved
  have hlisted : (Almanac.statsOf .champion (uncached.document .champion "Lux"
      (healthPage (nines 308)) false)).formulas.find? "hp" = some [flat (nines 308).value] :=
    listed_healthPage (nines 308)
  have hinfinite := evaluate_flat hl (isFinite_nines (Nat.le_refl 308))
  have hnone : valuesAt [flat (nines 308).value] 5 = [] := by
    rw [valuesAt, List.filterMap_cons, hinfinite]
    rfl
  have htells := tellsValues_statsAt (n := 5) hlisted (find?_calculateForms hl hvalues hlisted)
  obtain ⟨members, hmembers⟩ := htells.isObject
  have hwithout := htells.values
  rw [hnone] at hwithout
  have hvalueless : ¬∃ x, (flat (nines 308).value).evaluate 5 = .ok x := by
    rw [hinfinite]
    rintro ⟨x, ⟨⟩⟩
  obtain ⟨reason, -, hanswer'⟩ := asksForLevel_lux.answer_of_error hserved hl
    (f := flat (nines 308).value) (by rw [hlisted]; rfl) hvalueless
  exact ⟨_, members, _, _, hanswer, htells.level, htells.formulas, hmembers, hwithout, hanswer'⟩

end StatAlmanac.Api
