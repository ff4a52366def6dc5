import StatAlmanac.Formula.Basic
import StatAlmanac.Json.Decode
import StatAlmanac.Json.Write

/-!
Formulas as JSON. A formula is an object of named fields, or a list of them in
their order. Only the base value has to be there; unknown fields are passed
over, and no field may come twice.
-/

namespace StatAlmanac.Formula

open Json

structure Draft where
  base : Option Float := none
  coefficient : Option Float := none
  growth : Option Growth := none
  isPercentage : Option Bool := none
  cap : Option (Option Float) := none

namespace Draft

def readBase (t : Tree) (d : Draft) : Except Fault Draft := do
  return { d with base := ← Decode.once d.base Decode.real t }

def readCoefficient (t : Tree) (d : Draft) : Except Fault Draft := do
  return { d with coefficient := ← Decode.once d.coefficient Decode.real t }

def readGrowth (t : Tree) (d : Draft) : Except Fault Draft := do
  return { d with growth := ← Decode.once d.growth (Decode.choice Growth.ofName?) t }

def readPercentage (t : Tree) (d : Draft) : Except Fault Draft := do
  return { d with isPercentage := ← Decode.once d.isPercentage Decode.bool t }

def readCap (t : Tree) (d : Draft) : Except Fault Draft := do
  return { d with cap := ← Decode.once d.cap (Decode.nullable Decode.real) t }

def field (key : String) (t : Tree) (d : Draft) : Except Fault Draft :=
  match key with
  | "base_value" => readBase t d
  | "growth_coefficient" => readCoefficient t d
  | "growth_shape" => readGrowth t d
  | "is_percentage" => readPercentage t d
  | "max_value" => readCap t d
  | _ => do Decode.skip t; return d

def inOrder : List (Tree → Draft → Except Fault Draft) :=
  [readBase, readCoefficient, readGrowth, readPercentage, readCap]

/-- The formula; missing fields stand for no growth, no percentage and no cap. -/
def finish (d : Draft) : Except Fault Formula := do
  return {
    base := ← Decode.required d.base
    coefficient := d.coefficient.getD 0
    growth := d.growth.getD .flat
    isPercentage := d.isPercentage.getD false
    cap := d.cap.join }

end Draft

def ofTree : Decoder Formula
  | .object ms isClosed => do (← Decode.members Draft.field isClosed ms {}).finish
  | .list items isClosed => do (← Decode.items isClosed Draft.inOrder items {}).finish
  | t => .error (Decode.unexpected t)

def toValue (f : Formula) : Value :=
  .object <| [
    ("base_value", .real f.base),
    ("growth_coefficient", .real f.coefficient),
    ("growth_shape", .text f.growth.name),
    ("is_percentage", .bool f.isPercentage)] ++
    match f.cap with
    | some cap => [("max_value", .real cap)]
    | none => []

def write (f : Formula) : List Char := compact f.toValue

def read (body : Bytes) : Except Fault Formula := Decode.whole ofTree body

end StatAlmanac.Formula
