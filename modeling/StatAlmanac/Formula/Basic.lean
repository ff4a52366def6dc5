/-!
Stat formulas: a base value, a growth term that acts from the first level on,
and an optional cap. Levels run from 1 to 18.
-/

namespace StatAlmanac

inductive Growth where
  | flat
  | linear
  | quadratic
  deriving DecidableEq, Repr

def Growth.name : Growth → String
  | .flat => "none"
  | .linear => "linear"
  | .quadratic => "quadratic"

def Growth.ofName? : String → Option Growth
  | "none" => some .flat
  | "linear" => some .linear
  | "quadratic" => some .quadratic
  | _ => none

theorem Growth.ofName?_name (g : Growth) : Growth.ofName? g.name = some g := by
  cases g <;> rfl

structure Formula where
  base : Float
  coefficient : Float
  growth : Growth
  isPercentage : Bool
  cap : Option Float

namespace Formula

def flat (base : Float) : Formula := ⟨base, 0, .flat, false, none⟩

def linear (base coefficient : Float) : Formula := { flat base with coefficient, growth := .linear }

def quadratic (base coefficient : Float) : Formula :=
  { flat base with coefficient, growth := .quadratic }

def percentage (value : Float) : Formula := { flat value with isPercentage := true }

def withCap (f : Formula) (cap : Float) : Formula := { f with cap := some cap }

def hasGrowth (f : Formula) : Bool := f.growth != .flat

end Formula

def firstLevel : Nat := 1

def lastLevel : Nat := 18

structure Level where
  val : Nat
  first_le : firstLevel ≤ val
  le_last : val ≤ lastLevel
  deriving DecidableEq

namespace Level

def ofNat? (n : Nat) : Option Level :=
  if h : firstLevel ≤ n ∧ n ≤ lastLevel then some ⟨n, h.1, h.2⟩ else none

def steps (l : Level) : Nat := l.val - firstLevel

def all : List Level := (List.range (lastLevel + 1)).filterMap ofNat?

end Level

inductive FormulaError where
  | outOfRange (level : Nat)
  | invalidRange (first last : Nat)
  | malformed (reason : String)
  deriving DecidableEq, Repr

def FormulaError.message : FormulaError → String
  | .outOfRange level => s!"level {level} is outside the valid range {firstLevel}..={lastLevel}"
  | .invalidRange first last => s!"invalid level range {first}..={last}"
  | .malformed reason => "malformed formula: " ++ reason

end StatAlmanac
