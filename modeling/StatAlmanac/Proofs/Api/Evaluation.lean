import StatAlmanac.Proofs.Api.Agreement
import StatAlmanac.Proofs.Formula.Batch
import StatAlmanac.Proofs.Formula.Decoded
import StatAlmanac.Proofs.Text.Words

/-!
Batches of formulas that are evaluated at one level. Each name either gets a value or
is skipped, and it is skipped for a number that rules out a value. JSON has no such
numbers, so a batch that is posted is refused as a whole or has a value for every name.
-/

namespace StatAlmanac

/-- What rules out a batch, but for its level. -/
theorem Batch.isSome_defect?_iff {b : Batch} : b.defect?.isSome ↔
    256 < b.formulas.size ∨ ∃ name ∈ b.formulas.names, Text.trim name.toList = [] := by
  have hblank : (b.formulas.names.any fun name => Text.isAllBlank name.toList) = true ↔
      ∃ name ∈ b.formulas.names, Text.trim name.toList = [] := by
    simp only [List.any_eq_true, Text.trim_eq_nil_iff]
  rw [← hblank, Batch.defect?]
  by_cases hmost : Batch.most < b.formulas.size
  · simp only [hmost, if_true, Option.isSome_some]
    exact iff_of_true trivial (.inl hmost)
  · simp only [hmost, if_false]
    cases b.formulas.names.any fun name => Text.isAllBlank name.toList with
    | true => exact iff_of_true rfl (.inr rfl)
    | false => exact iff_of_false (by simp) fun h => h.elim hmost (by simp)

namespace Api

open Formula Json

variable {r : Request} {b : Batch} {formulas : Table Formula} {values : Table Float}
  {name : String} {n : Nat}

/-! ### Values and skipped names -/

theorem calculateAll_eq_ok (h : calculateAll formulas n = .ok values) :
    ∃ l, values = formulas.filterMap fun _ f =>
      if f.defect?.isNone then some (f.valueAt l) else none := by
  obtain ⟨l, -, hvalues⟩ := Decode.bind_eq_ok.1 h
  exact ⟨l, (Except.ok.inj hvalues).symm⟩

theorem names_values (h : calculateAll formulas n = .ok values) :
    values.names = formulas.names.filter fun name => values.contains name := by
  obtain ⟨l, rfl⟩ := calculateAll_eq_ok h
  exact Table.names_filterMap formulas _

/-- Every name that was asked for has a value or is skipped, and none both. -/
theorem perm_names (h : calculateAll formulas n = .ok values) :
    (values.names ++ skipped formulas values).Perm formulas.names := by
  rw [names_values h]
  exact List.filter_append_perm _ _

theorem mem_skipped_iff (h : calculateAll formulas n = .ok values) :
    name ∈ skipped formulas values ↔ ∃ f, formulas.find? name = some f ∧ f.defect?.isSome := by
  obtain ⟨l, rfl⟩ := calculateAll_eq_ok h
  rw [skipped, List.mem_filter, Table.contains, Table.find?_filterMap]
  constructor
  · rintro ⟨hname, hnone⟩
    obtain ⟨e, he, rfl⟩ := List.mem_map.1 hname
    refine ⟨e.2, (Table.mem_entries_iff formulas e.1 e.2).1 he, ?_⟩
    rw [(Table.mem_entries_iff formulas e.1 e.2).1 he, Option.bind_some] at hnone
    cases hdefect : e.2.defect? with
    | none => simp [hdefect] at hnone
    | some reason => rfl
  · rintro ⟨f, hf, hdefect⟩
    refine ⟨List.mem_map.2 ⟨(name, f), (Table.mem_entries_iff formulas name f).2 hf, rfl⟩, ?_⟩
    rw [hf, Option.bind_some, Option.isNone_eq_false_iff.2 hdefect]
    rfl

/-- A table of formulas with finite numbers has a value for every name. -/
theorem values_of_isFinite (h : calculateAll formulas n = .ok values)
    (hfinite : ∀ e ∈ formulas.entries, e.2.isFinite = true) :
    values.names = formulas.names ∧ skipped formulas values = [] := by
  have hnone : skipped formulas values = [] := by
    refine List.eq_nil_iff_forall_not_mem.2 fun name hname => ?_
    obtain ⟨f, hf, hdefect⟩ := (mem_skipped_iff h).1 hname
    have hmem := (Table.mem_entries_iff formulas name f).2 hf
    rw [defect?_of_isFinite (hfinite _ hmem)] at hdefect
    cases hdefect
  refine ⟨(names_values h).trans (List.filter_eq_self.2 fun name hname => ?_), hnone⟩
  have hkept := List.filter_eq_nil_iff.1 hnone name hname
  simpa using hkept

/-! ### Posted batches -/

/-- The request posts a batch to be evaluated. A body that is not said to be JSON or is too long is
turned away before it is read. -/
structure Posts (r : Request) (b : Batch) : Prop where
  method : r.method = "POST"
  route : Route.ofSegments? r.segments = some .evaluate
  isJson : (r.header? "content-type").any isJsonType = true
  length_le : r.body.length ≤ longestBody
  read : Batch.read r.body = .ok b

def evaluated (b : Batch) : Except Failure Value :=
  match b.defect? with
  | some reason => .error (.told (.invalidRequest reason))
  | none => match calculateAll b.formulas b.level with
    | .error e => .error (.told (.formula e))
    | .ok values => .ok (evaluation b.level b.formulas values)

theorem Posts.run_evaluateBatch (h : Posts r b) : (evaluateBatch r).run = pure (evaluated b) := by
  rw [evaluateBatch, evaluated]
  simp only [h.isJson, Nat.not_lt.2 h.length_le, h.read, Bool.not_true,
    Bool.false_eq_true, if_false]
  cases b.defect? with
  | some reason => rfl
  | none =>
      cases calculateAll b.formulas b.level with
      | error e => rfl
      | ok values => rfl

/-- The answer depends on nothing but the batch. -/
theorem Posts.respond_eq (h : Posts r b) (a : Almanac) :
    respond a r = pure (answerTo (evaluated b)) := by
  have hrun : (Route.evaluate.handle a r).run = pure (evaluated b) := h.run_evaluateBatch
  simp only [respond, h.method, h.route, hrun]
  cases evaluated b <;> rfl

/-- Without a batch in its body a posted request is answered with a status alone. -/
theorem posts_or_turnedAway (a : Almanac) (hmethod : r.method = "POST")
    (hroute : Route.ofSegments? r.segments = some .evaluate) :
    (∃ b, Posts r b) ∨ ∃ status ∈ [415, 413, 400, 422], respond a r = pure ⟨status, none⟩ := by
  have hrespond : ∀ status, (evaluateBatch r).run = pure (.error (.bare status)) →
      respond a r = pure ⟨status, none⟩ := by
    intro status hrun
    replace hrun : (Route.evaluate.handle a r).run = pure (.error (.bare status)) := hrun
    simp only [respond, hmethod, hroute, hrun]
    rfl
  cases hjson : (r.header? "content-type").any isJsonType with
  | false =>
      refine .inr ⟨415, by decide, hrespond 415 ?_⟩
      rw [evaluateBatch, hjson]
      rfl
  | true =>
      by_cases hlong : longestBody < r.body.length
      · refine .inr ⟨413, by decide, hrespond 413 ?_⟩
        simp only [evaluateBatch, hjson, hlong, if_true]
        rfl
      · cases hread : Batch.read r.body with
        | ok b => exact .inl ⟨b, hmethod, hroute, hjson, Nat.not_lt.1 hlong, hread⟩
        | error fault =>
            cases fault with
            | malformed =>
                refine .inr ⟨400, by decide, hrespond 400 ?_⟩
                simp only [evaluateBatch, hjson, hlong, hread, if_false]
                rfl
            | mismatch =>
                refine .inr ⟨422, by decide, hrespond 422 ?_⟩
                simp only [evaluateBatch, hjson, hlong, hread, if_false]
                rfl

/-- There is too much in the batch, a name has nothing but blanks, or it is no level that it is to
be evaluated at. -/
def IsRefused (b : Batch) : Prop :=
  256 < b.formulas.size ∨ (∃ name ∈ b.formulas.names, Text.trim name.toList = []) ∨
    ¬(1 ≤ b.level ∧ b.level ≤ 18)

theorem evaluated_of_isRefused (h : IsRefused b) :
    ∃ e, evaluated b = .error e ∧ e.answer.status = 400 := by
  rw [evaluated]
  cases hdefect : b.defect? with
  | some reason => exact ⟨_, rfl, rfl⟩
  | none =>
      have hlevel : ¬IsLevel b.level := by
        have hsound := mt (Batch.isSome_defect?_iff (b := b)).2 (by simp [hdefect])
        rcases h with hmost | hblank | hlevel
        · exact absurd (.inl hmost) hsound
        · exact absurd (.inr hblank) hsound
        · exact hlevel
      rw [calculateAll, level_of_not_isLevel hlevel]
      exact ⟨_, rfl, rfl⟩

theorem evaluated_of_not_isRefused (h : ¬IsRefused b) : ∃ values,
    calculateAll b.formulas b.level = .ok values ∧
      evaluated b = .ok (evaluation b.level b.formulas values) := by
  have hlevel : IsLevel b.level := Decidable.not_not.1 fun hlevel => h (.inr (.inr hlevel))
  have hdefect : b.defect? = none := by
    refine Option.not_isSome_iff_eq_none.1 fun hsome => h ?_
    exact (Batch.isSome_defect?_iff.1 hsome).imp_right .inl
  have hvalues := calculateAll_ok b.formulas (level_of_isLevel hlevel)
  refine ⟨_, hvalues, ?_⟩
  rw [evaluated, hdefect, hvalues]

/-! ### A batch and a table -/

def postedHealth : Request :=
  ⟨"POST", "/evaluate", [("content-type", "application/json")],
    Text.Utf8.encode
      "\x7b\"formulas\":\x7b\"hp\":\x7b\"base_value\":600\x7d\x7d,\"level\":3\x7d".toList⟩

theorem posts_postedHealth :
    Posts postedHealth ⟨Table.ofList [("hp", flat (Float.ofNat 600))], 3⟩ where
  method := rfl
  route := rfl
  isJson := by
    have htype : postedHealth.header? "content-type" = some "application/json" := by
      with_unfolding_all rfl
    rw [htype]
    rfl
  length_le := by decide
  read := by with_unfolding_all rfl

/-- A table with a number that JSON does not have. -/
def oddTable : Table Formula :=
  Table.ofList [("armor", flat (Float.ofNat 30)), ("hp", flat (Float.ofBits 0x7ff8000000000000))]

/-! ### What is answered -/

/-- A body with the values at a level and the names without one. -/
structure TellsEvaluation (body : Value) (level : Nat) (values : Table Float)
    (without : List String) : Prop where
  level : body.find? ["level"] = some (.natural level)
  values : body.find? ["values"] =
    some (.object (values.entries.map fun e => (e.1, .real e.2)))
  skipped : body.find? ["skipped"] = some (.list (without.map .text))

theorem tellsEvaluation (n : Nat) (formulas : Table Formula) (values : Table Float) :
    TellsEvaluation (evaluation n formulas values) n values (skipped formulas values) where
  level := find?_evaluation_level n formulas values
  values := find?_evaluation_values n formulas values
  skipped := find?_evaluation_skipped n formulas values

/-- A request to evaluate a batch is turned away with a status alone if there is no batch in it. A
batch that is posted is refused as a whole, or every name of it gets a value and none is skipped: no
text is read as a formula with a number that is not finite. Whatever formulas a table has, each name
gets a value or is skipped, and those are skipped whose formula has a number that rules out a
value. -/
theorem evaluation_complete :
    (∀ a r, r.method = "POST" → Route.ofSegments? r.segments = some .evaluate →
      (∃ b, Posts r b) ∨ ∃ status ∈ [415, 413, 400, 422], respond a r = pure ⟨status, none⟩) ∧
    (∀ a r b, Posts r b → ∃ answer, respond a r = pure answer ∧
      (answer.status = 400 ↔ 256 < b.formulas.size ∨
        (∃ name ∈ b.formulas.names, Text.trim name.toList = []) ∨ ¬(1 ≤ b.level ∧ b.level ≤ 18)) ∧
      (answer.status ≠ 400 → ∃ values, calculateAll b.formulas b.level = .ok values ∧
        answer = ⟨200, some (evaluation b.level b.formulas values)⟩ ∧
        TellsEvaluation (evaluation b.level b.formulas values) b.level values [] ∧
        values.names = b.formulas.names)) ∧
    (∀ body, (∀ f, Formula.read body = .ok f → f.isFinite = true) ∧
      ∀ b, Batch.read body = .ok b → ∀ e ∈ b.formulas.entries, e.2.isFinite = true) ∧
    ∀ formulas n, 1 ≤ n ∧ n ≤ 18 → ∃ values without, calculateAll formulas n = .ok values ∧
      TellsEvaluation (evaluation n formulas values) n values without ∧
      (values.names ++ without).Perm formulas.names ∧
      ∀ name, name ∈ without ↔ ∃ f, formulas.find? name = some f ∧
        (f.base.isFinite = false ∨ f.growth ≠ .flat ∧ f.coefficient.isFinite = false ∨
          ∃ cap ∈ f.cap, cap.isNaN = true) := by
  refine ⟨fun a r => posts_or_turnedAway a, fun a r b h => ⟨_, h.respond_eq a, ?_⟩, fun body =>
    ⟨fun f => Formula.isFinite_read, fun b => Batch.isFinite_read⟩, fun formulas n hn => ?_⟩
  · by_cases hrefused : IsRefused b
    · obtain ⟨e, he, hstatus⟩ := evaluated_of_isRefused hrefused
      rw [he]
      exact ⟨iff_of_true hstatus hrefused, fun hne => absurd hstatus hne⟩
    · obtain ⟨values, hvalues, he⟩ := evaluated_of_not_isRefused hrefused
      obtain ⟨hnames, hnone⟩ := values_of_isFinite hvalues (Batch.isFinite_read h.read)
      have htells := tellsEvaluation b.level b.formulas values
      rw [hnone] at htells
      rw [he]
      exact ⟨iff_of_false (by simp [answerTo]) hrefused,
        fun _ => ⟨values, hvalues, rfl, htells, hnames⟩⟩
  · have hvalues := calculateAll_ok formulas (level_of_isLevel hn)
    refine ⟨_, _, hvalues, tellsEvaluation n formulas _, perm_names hvalues, fun name => ?_⟩
    rw [mem_skipped_iff hvalues]
    simp only [isSome_defect?_iff]

/-- A batch with one name is answered with its value, and a table with a number that JSON does not
have leaves the name of it out. -/
theorem evaluation_complete_health :
    (∃ (body : Value) (x : Float), respond uncached postedHealth = pure ⟨200, some body⟩ ∧
      body.find? ["level"] = some (.natural 3) ∧
      body.find? ["values"] = some (.object [("hp", .real x)]) ∧
      body.find? ["skipped"] = some (.list [])) ∧
    ∃ (values : Table Float) (names : List String), calculateAll oddTable 18 = .ok values ∧
      (evaluation 18 oddTable values).find? ["skipped"] = some (.list (names.map .text)) ∧
      "hp" ∈ names := by
  obtain ⟨-, hposted, -, htable⟩ := evaluation_complete
  constructor
  · obtain ⟨answer, hrespond, hrefused, hanswer⟩ := hposted uncached _ _ posts_postedHealth
    obtain ⟨values, -, rfl, htells, hnames⟩ :=
      hanswer fun hstatus => absurd (hrefused.1 hstatus) (by decide)
    obtain ⟨e, hentries, hname⟩ := List.map_eq_singleton_iff.1 hnames
    have hvalues := htells.values
    rw [hentries, List.map_singleton, hname] at hvalues
    exact ⟨_, e.2, hrespond, htells.level, hvalues, htells.skipped⟩
  · obtain ⟨values, names, hvalues, htells, -, hskipped⟩ := htable oddTable 18 (by decide)
    exact ⟨values, names, hvalues, htells.skipped, (hskipped "hp").2 ⟨_, rfl, .inl rfl⟩⟩

end Api

end StatAlmanac
