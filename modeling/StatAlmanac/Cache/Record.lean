import StatAlmanac.Json.Decode
import StatAlmanac.Json.Write
import StatAlmanac.Table
import StatAlmanac.Time.StampText

/-!
The index of the cache as JSON: for each key a record of what is stored. A
record is an object of three named fields, or a list of them in their order;
unknown fields are passed over, and no field may come twice.
-/

namespace StatAlmanac

structure Record where
  sourceName : String
  storedAt : Stamp
  size : Nat
  deriving DecidableEq

abbrev Index := Table Record

namespace Record

open Json

def stampOfTree (t : Tree) : Except Fault Stamp := do
  match Stamp.read? (← Decode.text t).toList with
  | some s => return s
  | none => throw .mismatch

structure Draft where
  sourceName : Option String := none
  storedAt : Option Stamp := none
  size : Option Nat := none

namespace Draft

def readName (t : Tree) (d : Draft) : Except Fault Draft := do
  return { d with sourceName := ← Decode.once d.sourceName Decode.text t }

def readStamp (t : Tree) (d : Draft) : Except Fault Draft := do
  return { d with storedAt := ← Decode.once d.storedAt stampOfTree t }

def readSize (t : Tree) (d : Draft) : Except Fault Draft := do
  return { d with size := ← Decode.once d.size (Decode.natural bound64) t }

def field (key : String) (t : Tree) (d : Draft) : Except Fault Draft :=
  match key with
  | "sourceName" => readName t d
  | "timestamp" => readStamp t d
  | "byteSize" => readSize t d
  | _ => do Decode.skip t; return d

def inOrder : List (Tree → Draft → Except Fault Draft) := [readName, readStamp, readSize]

def finish (d : Draft) : Except Fault Record := do
  return {
    sourceName := ← Decode.required d.sourceName
    storedAt := ← Decode.required d.storedAt
    size := ← Decode.required d.size }

end Draft

def ofTree : Decoder Record
  | .object ms isClosed => do (← Decode.members Draft.field isClosed ms {}).finish
  | .list items isClosed => do (← Decode.items isClosed Draft.inOrder items {}).finish
  | t => .error (Decode.unexpected t)

def toValue (r : Record) : Value :=
  .object [
    ("sourceName", .text r.sourceName),
    ("timestamp", .text (String.ofList r.storedAt.write)),
    ("byteSize", .natural r.size)]

def write (r : Record) : List Char := compact r.toValue

def read (body : Bytes) : Except Fault Record := Decode.whole ofTree body

end Record

namespace Index

open Json

def ofTree (t : Tree) : Except Fault Index := do
  return Table.ofList (← Decode.table Record.ofTree t)

def toValue (i : Index) : Value := .object (i.entries.map fun e => (e.1, e.2.toValue))

def write (i : Index) : Bytes := Text.Utf8.encode (pretty 0 i.toValue)

def read? (body : Bytes) : Option Index :=
  if (Text.Utf8.decode? body).isSome then (Decode.whole ofTree body).toOption else none

end Index

end StatAlmanac
