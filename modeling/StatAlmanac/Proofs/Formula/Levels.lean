import StatAlmanac.Formula.Evaluate
import StatAlmanac.Proofs.Table

/-!
What can still go wrong when the levels are known to be in range: nothing, but
that a formula holds a number that is not finite. A table leaves such formulas
out, and a range of levels says which number it is.
-/

namespace StatAlmanac

theorem Level.mem_all (l : Level) : l ∈ Level.all :=
  List.mem_filterMap.2 ⟨l.val, List.mem_range.2 (Nat.lt_succ_of_le l.le_last),
    dif_pos ⟨l.first_le, l.le_last⟩⟩

namespace Formula

variable {f : Formula} {n first last : Nat} {l low high : Level}

def isFinite (f : Formula) : Bool :=
  f.base.isFinite && f.coefficient.isFinite && f.cap.all Float.isFinite

theorem isNaN_of_isFinite {x : Float} (h : x.isFinite) : x.isNaN = false := by
  replace h : x.toModel.unpack.isFinite = true := h
  show x.toModel.unpack.isNaN = false
  cases hx : x.toModel.unpack with
  | notANumber =>
      rw [hx] at h
      cases h
  | _ => rfl

theorem defect?_of_isFinite (h : f.isFinite) : f.defect? = none := by
  simp only [isFinite, Bool.and_eq_true] at h
  obtain ⟨⟨hbase, hcoefficient⟩, hcap⟩ := h
  have hnan : f.cap.any Float.isNaN = false := by
    cases hf : f.cap with
    | none => rfl
    | some cap =>
        rw [hf] at hcap
        exact isNaN_of_isFinite hcap
  simp [defect?, hbase, hcoefficient, hnan]

/-- What rules out a value: a base or, with growth, a coefficient that is not finite, or a cap that
is NaN. -/
theorem isSome_defect?_iff : f.defect?.isSome ↔ f.base.isFinite = false ∨
    f.growth ≠ .flat ∧ f.coefficient.isFinite = false ∨ ∃ cap ∈ f.cap, cap.isNaN = true := by
  have hcap : f.cap.any Float.isNaN = true ↔ ∃ cap ∈ f.cap, cap.isNaN = true := by
    cases f.cap <;> simp
  rw [← hcap, defect?, hasGrowth]
  cases f.base.isFinite <;> cases f.coefficient.isFinite <;> cases f.cap.any Float.isNaN <;>
    cases f.growth <;> simp

/-- With its levels in range and in order, only a defect of the formula can rule out a range. -/
theorem levelRange_eq (hlow : level first = .ok low) (hhigh : level last = .ok high)
    (hle : ¬high.val < low.val) :
    f.levelRange first last = match f.defect? with
      | some reason => .error (.malformed reason)
      | none => .ok ((Level.all.filter fun l => low.val ≤ l.val && l.val ≤ high.val).map
          fun l => (l, f.valueAt l)) := by
  rw [levelRange, hlow, hhigh]
  simp only [bind, Except.bind, hle, if_false, pure, Except.pure, checked]
  cases f.defect? <;> rfl

theorem level_val (h : level n = .ok l) : l.val = n := by
  rw [level, Level.ofNat?] at h
  split at h
  · rename_i m hm
    split at hm
    · obtain rfl := Option.some.inj hm
      obtain rfl := Except.ok.inj h
      rfl
    · cases hm
  · cases h

theorem evaluate_eq (h : level n = .ok l) :
    f.evaluate n = match f.defect? with
      | some reason => .error (.malformed reason)
      | none => .ok (f.valueAt l) := by
  rw [evaluate, h]
  simp only [bind, Except.bind, checked]
  cases f.defect? <;> rfl

theorem levelRange_self (h : level n = .ok l) :
    f.levelRange n n = (f.evaluate n).map fun x => [(l, x)] := by
  have hself :
      ∀ l ∈ Level.all, (Level.all.filter fun m => l.val ≤ m.val && m.val ≤ l.val) = [l] := by
    decide
  rw [levelRange_eq h h (Nat.lt_irrefl _), evaluate_eq h, hself l l.mem_all]
  cases f.defect? <;> rfl

theorem calculateAll_ok (formulas : Table Formula) (h : level n = .ok l) :
    calculateAll formulas n =
      .ok (formulas.filterMap fun _ f =>
        if f.defect?.isNone then some (f.valueAt l) else none) := by
  rw [calculateAll, h]
  rfl

theorem calculateForms_ok (formulas : Table (List Formula)) (h : level n = .ok l) :
    ∃ values, calculateForms formulas n = .ok values := by
  rw [calculateForms, h]
  exact ⟨_, rfl⟩

/-- The values of those forms of a stat that have one. -/
def valuesAt (forms : List Formula) (n : Nat) : List Float :=
  forms.filterMap fun f => (f.evaluate n).toOption

theorem toOption_evaluate (h : level n = .ok l) :
    (f.evaluate n).toOption = if f.defect?.isNone then some (f.valueAt l) else none := by
  rw [evaluate_eq h]
  cases f.defect? <;> rfl

theorem calculateForms_eq (formulas : Table (List Formula)) (h : level n = .ok l) :
    calculateForms formulas n = .ok (formulas.filterMap fun _ forms =>
      if (valuesAt forms n).isEmpty then none else some (valuesAt forms n)) := by
  rw [calculateForms, h]
  refine congrArg (fun keep => Except.ok (formulas.filterMap keep))
    (funext fun _ => funext fun forms => ?_)
  simp only [valuesAt, toOption_evaluate h]
  cases forms.filterMap fun f => if f.defect?.isNone then some (f.valueAt l) else none <;> rfl

theorem find?_calculateForms {formulas : Table (List Formula)} {values : Table (List Float)}
    {forms : List Formula} {stat : String} (h : level n = .ok l)
    (hvalues : calculateForms formulas n = .ok values) (hforms : formulas.find? stat = some forms) :
    values.find? stat = if (valuesAt forms n).isEmpty then none else some (valuesAt forms n) := by
  rw [calculateForms_eq formulas h] at hvalues
  obtain rfl := Except.ok.inj hvalues
  rw [Table.find?_filterMap, hforms, Option.bind_some]

theorem valuesAt_cons {forms : List Formula} {x : Float} (h : f.evaluate n = .ok x) :
    valuesAt (f :: forms) n = x :: valuesAt forms n := by
  rw [valuesAt, List.filterMap_cons, h]
  rfl

/-- If all forms of a stat have a value, there are as many values, in the same order. -/
theorem forall₂_valuesAt {forms : List Formula} (h : ∀ f ∈ forms, ∃ x, f.evaluate n = .ok x) :
    List.Forall₂ (fun f x => f.evaluate n = .ok x) forms (valuesAt forms n) := by
  induction forms with
  | nil => exact .nil
  | cons f forms ih =>
      obtain ⟨x, hx⟩ := h f List.mem_cons_self
      rw [valuesAt_cons hx]
      exact .cons hx (ih fun g hg => h g (List.mem_cons_of_mem _ hg))

end Formula

end StatAlmanac
