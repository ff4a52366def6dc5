import StatAlmanac.Api.Batch
import StatAlmanac.Proofs.Formula.Levels
import StatAlmanac.Proofs.Json.Rereading
import StatAlmanac.Proofs.Json.Trees

/-!
Formulas written and read back, by themselves or in a batch to evaluate. The shape, the
flag and the presence of a cap come back as they were. The numbers do as far as the
arithmetic of the reader goes: it is exact for short numbers only.
-/

namespace StatAlmanac.Formula

open Json Text

variable {f : Formula}

theorem isExact_toValue (hf : f.isFinite) : f.toValue.IsExact := by
  simp only [isFinite, Bool.and_eq_true] at hf
  obtain ⟨⟨hbase, hcoefficient⟩, hcap⟩ := hf
  cases hc : f.cap with
  | none => simp [toValue, hc, Value.IsExact, Value.MembersAreExact, hbase, hcoefficient]
  | some cap =>
      rw [hc] at hcap
      have hcap' : cap.isFinite := hcap
      simp [toValue, hc, Value.IsExact, Value.MembersAreExact, hbase, hcoefficient, hcap']

/-- The tree of a formula is read as a formula of the numbers that its numbers are read as. -/
theorem ofTree_toValue {base coefficient : Float} {cap : Option Float}
    (hbase : numberOf f.base = some (.real base))
    (hcoefficient : numberOf f.coefficient = some (.real coefficient))
    (hcap : f.cap.map numberOf = cap.map fun x => some (.real x)) :
    ofTree f.toValue.tree = .ok ⟨base, coefficient, f.growth, f.isPercentage, cap⟩ := by
  obtain ⟨x, a, growth, flag, c⟩ := f
  have hname : Decode.choice Growth.ofName? (.text (some growth.name)) = .ok growth := by
    simp only [Decode.choice, Decode.choice.named, Growth.ofName?_name]
  dsimp only at hbase hcoefficient hcap
  cases c with
  | none =>
      cases cap with
      | none =>
          simp only [toValue, List.append_nil, Value.tree, Value.memberTrees, ofTree,
            Decode.members, Draft.field, Draft.readBase, Draft.readCoefficient, Draft.readGrowth,
            Draft.readPercentage, Decode.once, hbase, hcoefficient, hname]
          rfl
      | some y => cases hcap
  | some x =>
      cases cap with
      | none => cases hcap
      | some y =>
          have hcap' : numberOf x = some (.real y) := Option.some.inj hcap
          simp only [toValue, List.cons_append, List.nil_append, Value.tree, Value.memberTrees,
            ofTree, Decode.members, Draft.field, Draft.readBase, Draft.readCoefficient,
            Draft.readGrowth, Draft.readPercentage, Draft.readCap, Decode.once, hbase, hcoefficient,
            hname, hcap']
          rfl

def posted (name : String) (level : Nat) (f : Formula) : Value :=
  .object [("formulas", .object [(name, f.toValue)]), ("level", .natural level)]

theorem isExact_posted {name : String} {level : Nat} (hf : f.isFinite) (hlevel : level < bound32) :
    (posted name level f).IsExact := by
  have hlt : level < bound64 := Nat.lt_trans hlevel (by decide)
  exact ⟨⟨isExact_toValue hf, trivial⟩, hlt, trivial⟩

theorem ofTree_posted {name : String} {level : Nat} {g : Formula} (hlevel : level < bound32)
    (h : ofTree f.toValue.tree = .ok g) :
    Batch.ofTree (posted name level f).tree = .ok ⟨Table.ofList [(name, g)], level⟩ := by
  have hnatural : Decode.natural bound32 (.number (some (.natural level))) = .ok level := by
    rw [Decode.natural, if_pos hlevel]
  have hformulas : Batch.Draft.formulasOfTree (.object [(.name name, f.toValue.tree)] true) =
      .ok (Table.ofList [(name, g)]) := by
    simp only [Batch.Draft.formulasOfTree, Decode.table, Decode.members, h]
    rfl
  simp only [posted, Value.tree, Value.memberTrees, Batch.ofTree, Decode.members, Batch.Draft.field,
    Batch.Draft.readFormulas, Batch.Draft.readLevel, Decode.once, hformulas, hnatural]
  rfl

/-- What was written for a formula of finite numbers is read as a formula again, also in a batch to
evaluate. That has the same shape, flag and presence of a cap, and its numbers are those that the
numbers of the first may come back as. -/
theorem read_write (hf : f.isFinite) :
    ∃ g, read (Utf8.encode f.write) = .ok g ∧
      (∀ name level, level < bound32 →
        Batch.read (Utf8.encode (compact (posted name level f))) =
          .ok ⟨Table.ofList [(name, g)], level⟩) ∧
      g.growth = f.growth ∧ g.isPercentage = f.isPercentage ∧
      IsReread f.base g.base ∧ IsReread f.coefficient g.coefficient ∧
        Option.Rel IsReread f.cap g.cap := by
  have hexact := isExact_toValue hf
  have hnumbers := hf
  simp only [isFinite, Bool.and_eq_true] at hnumbers
  obtain ⟨⟨hbase, hcoefficient⟩, hcap⟩ := hnumbers
  obtain ⟨base, hbase', hbase⟩ := numberOf_isReread hbase
  obtain ⟨coefficient, hcoefficient', hcoefficient⟩ := numberOf_isReread hcoefficient
  obtain ⟨cap, hcap', hcap⟩ : ∃ cap, f.cap.map numberOf = cap.map (fun x => some (.real x)) ∧
      Option.Rel IsReread f.cap cap := by
    cases hc : f.cap with
    | none => exact ⟨none, rfl, .none⟩
    | some x =>
        rw [hc] at hcap
        obtain ⟨y, hy, hy'⟩ := numberOf_isReread (x := x) hcap
        exact ⟨some y, congrArg some hy, .some hy'⟩
  have htree := ofTree_toValue hbase' hcoefficient' hcap'
  refine ⟨⟨base, coefficient, f.growth, f.isPercentage, cap⟩, ?_,
    fun name level hlevel => ?_, rfl, rfl,
    hbase, hcoefficient, hcap⟩
  · rw [read, write, whole_compact _ hexact, htree]
  · rw [Batch.read, Decode.leading, read_compact (isExact_posted hf hlevel)]
    exact ofTree_posted hlevel htree

theorem read_write_capped :
    let f :=
      withCap (linear (Float.ofBits 0x4025c487c20ddc27) 0.5) (Float.ofBits 0x8000000000000000)
    ∃ g, read (Utf8.encode f.write) = .ok g ∧
      (∀ name level, level < bound32 →
        Batch.read (Utf8.encode (compact (posted name level f))) =
          .ok ⟨Table.ofList [(name, g)], level⟩) ∧
      g.growth = f.growth ∧ g.isPercentage = f.isPercentage ∧
      IsReread f.base g.base ∧ IsReread f.coefficient g.coefficient ∧
        Option.Rel IsReread f.cap g.cap :=
  read_write (by rfl)

/-- The number 10.883848251525775 comes back as the next higher one. -/
theorem read_write_next :
    (flat (Float.ofBits 0x4025c487c20ddc27)).isFinite ∧
      read (Utf8.encode (flat (Float.ofBits 0x4025c487c20ddc27)).write) =
        .ok (flat (Float.ofBits 0x4025c487c20ddc28)) ∧
      flat (Float.ofBits 0x4025c487c20ddc27) ≠ flat (Float.ofBits 0x4025c487c20ddc28) := by
  have hfinite : (flat (Float.ofBits 0x4025c487c20ddc27)).isFinite := by rfl
  have hbase : numberOf (Float.ofBits 0x4025c487c20ddc27) =
      some (.real (Float.ofBits 0x4025c487c20ddc28)) := by rfl
  have hcoefficient : numberOf 0 = some (.real 0) := by rfl
  refine ⟨hfinite, ?_, fun h => ?_⟩
  · rw [read, write, whole_compact _ (isExact_toValue hfinite)]
    have hcap : (flat (Float.ofBits 0x4025c487c20ddc27)).cap.map numberOf =
        (none : Option Float).map fun x => some (.real x) := rfl
    exact ofTree_toValue hbase hcoefficient hcap
  · have hbits := congrArg (fun f => f.base.toBits) h
    exact absurd hbits (by decide)

end StatAlmanac.Formula
