import StatAlmanac.Decimal.Numeral
import StatAlmanac.Formula.Basic
import StatAlmanac.Table

/-!
The value of a formula at a level, and the same for ranges of levels and for
tables of formulas. A formula with a number that no value can be made of is
refused as a whole; a table leaves it out.
-/

namespace StatAlmanac.Formula

def uncapped (f : Formula) (l : Level) : Float :=
  let steps := Float.ofNat l.steps
  match f.growth with
  | .flat => f.base
  | .linear => f.base + f.coefficient * steps
  | .quadratic => f.base + f.coefficient * steps * steps

/-- The value, or the cap when the value is not below it. -/
def valueAt (f : Formula) (l : Level) : Float :=
  match f.cap with
  | some cap => if f.uncapped l < cap then f.uncapped l else cap
  | none => f.uncapped l

/-- The first number of the formula that rules out a value, in words. A coefficient counts only when
there is growth, and an infinite cap is no fault. -/
def defect? (f : Formula) : Option String :=
  if !f.base.isFinite then
    some ("base value " ++ Decimal.oddName f.base ++ " is not finite")
  else if f.hasGrowth && !f.coefficient.isFinite then
    some ("growth coefficient " ++ Decimal.oddName f.coefficient ++ " is not finite")
  else if f.cap.any Float.isNaN then some "max value is NaN"
  else none

def level (n : Nat) : Except FormulaError Level :=
  match Level.ofNat? n with
  | some l => .ok l
  | none => .error (.outOfRange n)

def checked (f : Formula) : Except FormulaError Unit :=
  match f.defect? with
  | some reason => .error (.malformed reason)
  | none => .ok ()

def evaluate (f : Formula) (n : Nat) : Except FormulaError Float := do
  let l ← level n
  f.checked
  return f.valueAt l

def levelRange (f : Formula) (first last : Nat) : Except FormulaError (List (Level × Float)) := do
  let low ← level first
  let high ← level last
  if high.val < low.val then throw (.invalidRange first last)
  f.checked
  return (Level.all.filter fun l => low.val ≤ l.val && l.val ≤ high.val).map
    fun l => (l, f.valueAt l)

/-- What the levels up to `n` have added to the value at the first level, caps included. -/
def growthAt (f : Formula) (n : Nat) : Except FormulaError Float := do
  let there ← f.evaluate n
  let first ← f.evaluate firstLevel
  return there - first

def calculateAll (formulas : Table Formula) (n : Nat) : Except FormulaError (Table Float) := do
  let l ← level n
  return formulas.filterMap fun _ f => if f.defect?.isNone then some (f.valueAt l) else none

/-- The values of all forms of each stat; a stat with none left is left out. -/
def calculateForms (formulas : Table (List Formula)) (n : Nat) :
    Except FormulaError (Table (List Float)) := do
  let l ← level n
  return formulas.filterMap fun _ forms =>
    match forms.filterMap fun f => if f.defect?.isNone then some (f.valueAt l) else none with
    | [] => none
    | values => some values

end StatAlmanac.Formula
