import StatAlmanac.Json.Tree

/-!
Values read off JSON trees. There are two faults: the text is no JSON
(`malformed`), or it is JSON of another shape (`mismatch`). The first fault in
the order of the text is reported.
-/

namespace StatAlmanac.Json

inductive Fault where
  | malformed
  | mismatch
  deriving DecidableEq, Repr

abbrev Decoder (α : Type) := Tree → Except Fault α

namespace Decode

variable {α σ : Type}

/-- The fault of a value of another shape; a value that is not even readable is malformed. -/
def unexpected : Tree → Fault
  | .broken | .number none | .text none => .malformed
  | _ => .mismatch

def real : Decoder Float
  | .number (some n) => .ok n.toFloat
  | t => .error (unexpected t)

def natural (bound : Nat) : Decoder Nat
  | .number (some (.natural n)) => if n < bound then .ok n else .error .mismatch
  | t => .error (unexpected t)

def bool : Decoder Bool
  | .bool b => .ok b
  | t => .error (unexpected t)

def text : Decoder String
  | .text (some s) => .ok s
  | t => .error (unexpected t)

def nullable (d : Decoder α) : Decoder (Option α)
  | .null => .ok none
  | t => some <$> d t

/-- A value of any shape: it only has to be JSON. -/
def skip : Decoder Unit
  | .broken => .error .malformed
  | .list _ isClosed | .object _ isClosed => if isClosed then .ok () else .error .malformed
  | _ => .ok ()

/-- One of a few names, as a string or as the only key of an object with the value `null`. -/
def choice (ofName? : String → Option α) : Decoder α
  | .text (some s) => named s
  | .object ((.name s, t) :: more) isClosed => do
      let a ← named s
      match t with
      | .null => if more.isEmpty && isClosed then return a else throw .malformed
      | t => throw (unexpected t)
  | _ => .error .malformed
where
  named (s : String) : Except Fault α :=
    match ofName? s with
    | some a => .ok a
    | none => .error .mismatch

def members (read : String → Tree → σ → Except Fault σ) (isClosed : Bool) :
    List (Key × Tree) → σ → Except Fault σ
  | [], s => if isClosed then .ok s else .error .malformed
  | (.name key, t) :: rest, s => do members read isClosed rest (← read key t s)
  | _ :: _, _ => .error .malformed

def once (field : Option α) (d : Decoder α) (t : Tree) : Except Fault (Option α) :=
  match field with
  | some _ => .error .mismatch
  | none => some <$> d t

def required : Option α → Except Fault α
  | some a => .ok a
  | none => .error .mismatch

/-- Reads the items of a list one by one into a state, each as the field of its place. Fields behind
the end stay unread, and items behind the last field are too many. -/
def items (isClosed : Bool) : List (Tree → σ → Except Fault σ) → List Tree → σ → Except Fault σ
  | [], [], s => if isClosed then .ok s else .error .malformed
  | [], _ :: _, _ => .error .malformed
  | _ :: _, [], s => if isClosed then .ok s else .error .malformed
  | field :: fields, t :: rest, s => do items isClosed fields rest (← field t s)

/-- Values by name; of several with one name the last counts. -/
def table (d : Decoder α) : Decoder (List (String × α))
  | .object ms isClosed =>
      List.reverse <$> members (fun key t found => return (key, ← d t) :: found) isClosed ms []
  | t => .error (unexpected t)

def whole (d : Decoder α) (body : Bytes) : Except Fault α := do
  let (t, rest) := Tree.read body
  let a ← d t
  if rest.isEmpty then return a else throw .malformed

def leading (d : Decoder α) (body : Bytes) : Except Fault α := d (Tree.read body).1

end Decode

end StatAlmanac.Json
