import StatAlmanac.Formula.Json
import StatAlmanac.Table
import StatAlmanac.Text.Blank

/-!
Batches: formulas by name that are all to be evaluated at one level. As JSON a
batch is an object of two fields, or a list of them in their order; of several
formulas with one name the last counts.
-/

namespace StatAlmanac

structure Batch where
  formulas : Table Formula
  /-- A number of 32 bits; whether it is a level is seen later. -/
  level : Nat

namespace Batch

open Json

def most : Nat := 256

structure Draft where
  formulas : Option (Table Formula) := none
  level : Option Nat := none

namespace Draft

def formulasOfTree (t : Tree) : Except Fault (Table Formula) := do
  return Table.ofList (← Decode.table Formula.ofTree t)

def readFormulas (t : Tree) (d : Draft) : Except Fault Draft := do
  return { d with formulas := ← Decode.once d.formulas formulasOfTree t }

def readLevel (t : Tree) (d : Draft) : Except Fault Draft := do
  return { d with level := ← Decode.once d.level (Decode.natural bound32) t }

def field (key : String) (t : Tree) (d : Draft) : Except Fault Draft :=
  match key with
  | "formulas" => readFormulas t d
  | "level" => readLevel t d
  | _ => do Decode.skip t; return d

/-- The fields in the order in which a list gives them. -/
def inOrder : List (Tree → Draft → Except Fault Draft) := [readFormulas, readLevel]

def finish (d : Draft) : Except Fault Batch := do
  return { formulas := ← Decode.required d.formulas, level := ← Decode.required d.level }

end Draft

def ofTree : Decoder Batch
  | .object ms isClosed => do (← Decode.members Draft.field isClosed ms {}).finish
  | .list items isClosed => do (← Decode.items isClosed Draft.inOrder items {}).finish
  | t => .error (Decode.unexpected t)

/-- The batch at the front of a text. -/
def read (body : Bytes) : Except Fault Batch := Decode.leading ofTree body

def defect? (b : Batch) : Option String :=
  if most < b.formulas.size then some s!"At most {most} formulas can be evaluated per request"
  else if b.formulas.names.any fun name => Text.isAllBlank name.toList then
    some "Stat names cannot be empty"
  else none

end Batch

end StatAlmanac
