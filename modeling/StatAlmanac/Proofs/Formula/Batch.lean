import Mathlib.Data.List.Intervals
import StatAlmanac.Proofs.Formula.Levels

/-!
Tables, ranges and growth are made of single values. Each of them is described
by what may come out of it: which values, said by `evaluate` alone, and which
error, at which level or for which formula.
-/

namespace StatAlmanac

def IsLevel (n : Nat) : Prop := firstLevel ≤ n ∧ n ≤ lastLevel

instance (n : Nat) : Decidable (IsLevel n) :=
  inferInstanceAs (Decidable (firstLevel ≤ n ∧ n ≤ lastLevel))

theorem Level.isLevel (l : Level) : IsLevel l.val := ⟨l.first_le, l.le_last⟩

theorem Level.vals_all : Level.all.map (·.val) = List.Ico firstLevel (lastLevel + 1) := by decide

theorem Level.vals_between (low high : Level) :
    (Level.all.filter fun l => low.val ≤ l.val && l.val ≤ high.val).map (·.val) =
      List.Ico low.val (high.val + 1) := by
  have hsplit : (fun l : Level => decide (low.val ≤ l.val) && decide (l.val ≤ high.val)) =
      (fun n => decide (low.val ≤ n) && decide (n < high.val + 1)) ∘ (·.val) := by
    funext l
    simp only [Function.comp_apply, Nat.lt_succ_iff]
  rw [hsplit, ← List.filter_map, vals_all, ← List.filter_filter, List.Ico.filter_lt,
    List.Ico.filter_le, Nat.max_eq_right low.first_le,
    Nat.min_eq_right (Nat.succ_le_succ high.le_last)]

namespace Formula

variable {f : Formula} {n last : Nat} {l : Level}

theorem level_of_isLevel (h : IsLevel n) : level n = .ok ⟨n, h.1, h.2⟩ := by
  have hlevel : Level.ofNat? n = some ⟨n, h.1, h.2⟩ := dif_pos h
  rw [level, hlevel]

theorem level_of_not_isLevel (h : ¬IsLevel n) : level n = .error (.outOfRange n) := by
  have hlevel : Level.ofNat? n = none := dif_neg h
  rw [level, hlevel]

/-- At every level the same formulas have a value, and the others the same defect. -/
theorem evaluate_eq_error_iff {e : FormulaError} (hn : IsLevel n) (hlast : IsLevel last) :
    f.evaluate n = .error e ↔ f.evaluate last = .error e := by
  rw [evaluate_eq (level_of_isLevel hn), evaluate_eq (level_of_isLevel hlast)]
  cases f.defect? <;> simp

theorem isLevel_of_evaluate {x : Float} (h : f.evaluate n = .ok x) : IsLevel n := by
  by_contra hn
  rw [evaluate, level_of_not_isLevel hn] at h
  cases h

/-! ### Tables -/

/-- A table has the values of its formulas. It has an error only for what is no level. -/
def AgreesAll (formulas : Table Formula) (n : Nat) : Except FormulaError (Table Float) → Prop
  | .ok values => IsLevel n ∧ ∀ name x, values.find? name = some x ↔
      ∃ f, formulas.find? name = some f ∧ f.evaluate n = .ok x
  | .error e => ¬IsLevel n ∧ e = .outOfRange n

theorem agreesAll (formulas : Table Formula) (n : Nat) :
    AgreesAll formulas n (calculateAll formulas n) := by
  by_cases hn : IsLevel n
  · have hlevel := level_of_isLevel hn
    rw [calculateAll, hlevel]
    refine ⟨hn, fun name x => ?_⟩
    rw [Table.find?_filterMap, Option.bind_eq_some_iff]
    refine exists_congr fun f => and_congr_right fun _ => ?_
    rw [evaluate_eq hlevel]
    cases f.defect? <;> simp
  · rw [calculateAll, level_of_not_isLevel hn]
    exact ⟨hn, rfl⟩

/-- A table of forms has, for each stat, the values of those forms that have one, in the order of
the forms, and nothing for a stat without such a form. -/
def AgreesForms (formulas : Table (List Formula)) (n : Nat) :
    Except FormulaError (Table (List Float)) → Prop
  | .ok values => IsLevel n ∧ ∀ stat xs, values.find? stat = some xs ↔
      ∃ forms, formulas.find? stat = some forms ∧ xs = valuesAt forms n ∧ xs ≠ []
  | .error e => ¬IsLevel n ∧ e = .outOfRange n

theorem agreesForms (formulas : Table (List Formula)) (n : Nat) :
    AgreesForms formulas n (calculateForms formulas n) := by
  by_cases hn : IsLevel n
  · rw [calculateForms_eq formulas (level_of_isLevel hn)]
    refine ⟨hn, fun stat xs => ?_⟩
    rw [Table.find?_filterMap, Option.bind_eq_some_iff]
    refine exists_congr fun forms => and_congr_right fun _ => ?_
    rw [Option.ite_none_left_eq_some, Option.some.injEq, List.isEmpty_iff, and_comm]
    constructor
    · rintro ⟨rfl, hne⟩
      exact ⟨rfl, hne⟩
    · rintro ⟨rfl, hne⟩
      exact ⟨rfl, hne⟩
  · rw [calculateForms, level_of_not_isLevel hn]
    exact ⟨hn, rfl⟩

/-! ### Ranges of levels -/

/-- A range has the value at each of its levels. Of several faults the first end comes first, then
the last, then their order, and then the formula. -/
def AgreesRange (f : Formula) (first last : Nat) : Except FormulaError (List (Level × Float)) → Prop
  | .ok values => IsLevel first ∧ IsLevel last ∧ first ≤ last ∧ (∃ x, f.evaluate first = .ok x) ∧
      values.map (·.1.val) = List.Ico first (last + 1) ∧
      ∀ row ∈ values, f.evaluate row.1.val = .ok row.2
  | .error e =>
      ¬IsLevel first ∧ e = .outOfRange first ∨
      IsLevel first ∧ ¬IsLevel last ∧ e = .outOfRange last ∨
      IsLevel first ∧ IsLevel last ∧ last < first ∧ e = .invalidRange first last ∨
      IsLevel first ∧ IsLevel last ∧ first ≤ last ∧ f.evaluate first = .error e ∧
        ∃ reason, e = .malformed reason

theorem agreesRange (f : Formula) (first last : Nat) :
    AgreesRange f first last (f.levelRange first last) := by
  by_cases hfirst : IsLevel first
  · by_cases hlast : IsLevel last
    · have hlow := level_of_isLevel hfirst
      have hhigh := level_of_isLevel hlast
      by_cases hlt : last < first
      · rw [levelRange, hlow, hhigh]
        simp only [bind, Except.bind, hlt, if_true]
        exact .inr (.inr (.inl ⟨hfirst, hlast, hlt, rfl⟩))
      · have hle := Nat.not_lt.1 hlt
        rw [levelRange_eq hlow hhigh hlt]
        cases hdefect : f.defect? with
        | some reason =>
            have hvalue : f.evaluate first = .error (.malformed reason) := by
              rw [evaluate_eq hlow, hdefect]
            exact .inr (.inr (.inr ⟨hfirst, hlast, hle, hvalue, reason, rfl⟩))
        | none =>
            have hvalue (l : Level) : f.evaluate l.val = .ok (f.valueAt l) := by
              rw [evaluate_eq (level_of_isLevel l.isLevel), hdefect]
            refine ⟨hfirst, hlast, hle, ⟨_, hvalue ⟨first, hfirst.1, hfirst.2⟩⟩, ?_, ?_⟩
            · rw [List.map_map]
              exact Level.vals_between ⟨first, hfirst.1, hfirst.2⟩ ⟨last, hlast.1, hlast.2⟩
            · intro row hrow
              obtain ⟨l, -, rfl⟩ := List.mem_map.1 hrow
              exact hvalue l
    · rw [levelRange, level_of_isLevel hfirst, level_of_not_isLevel hlast]
      exact .inr (.inl ⟨hfirst, hlast, rfl⟩)
  · rw [levelRange, level_of_not_isLevel hfirst]
    exact .inl ⟨hfirst, rfl⟩

/-! ### Growth -/

/-- The growth is the value at the level less the one at the first level,
or the error at the level. -/
def AgreesGrowth (f : Formula) (n : Nat) : Except FormulaError Float → Prop
  | .ok x => ∃ there first, f.evaluate n = .ok there ∧ f.evaluate firstLevel = .ok first ∧
      x = there - first
  | .error e => f.evaluate n = .error e

theorem agreesGrowth (f : Formula) (n : Nat) : AgreesGrowth f n (f.growthAt n) := by
  cases hthere : f.evaluate n with
  | error e =>
      rw [growthAt, hthere]
      exact hthere
  | ok there =>
      cases hfirst : f.evaluate firstLevel with
      | error e =>
          have hn := isLevel_of_evaluate hthere
          rw [(evaluate_eq_error_iff (by decide) hn).1 hfirst] at hthere
          cases hthere
      | ok first =>
          rw [growthAt, hthere]
          simp only [bind, Except.bind, hfirst]
          exact ⟨there, first, hthere, hfirst, rfl⟩

/-- What tables, ranges and growth give is what `evaluate` gives for each formula at each level, and
their errors are those that it gives, in this order. -/
theorem batches_pointwise (formulas : Table Formula) (forms : Table (List Formula)) (f : Formula)
    (n first last : Nat) :
    AgreesAll formulas n (calculateAll formulas n) ∧
    AgreesForms forms n (calculateForms forms n) ∧
    AgreesRange f first last (f.levelRange first last) ∧
    AgreesGrowth f n (f.growthAt n) :=
  ⟨agreesAll formulas n, agreesForms forms n, agreesRange f first last, agreesGrowth f n⟩

end Formula

end StatAlmanac
