import StatAlmanac.Decimal.Numeral

/-!
JSON values and their texts: compact, or spread over lines with two spaces for
each level. In strings quotes, backslashes and controls are escaped and all
else is written as it is. Numbers that are not finite are written as `null`.
-/

namespace StatAlmanac.Json

inductive Value where
  | null
  | bool (b : Bool)
  | natural (n : Nat)
  | real (x : Float)
  | text (s : String)
  | list (items : List Value)
  | object (members : List (String × Value))

namespace Value

/-- The member of an object with this name; of several the first. -/
def member? (name : String) : Value → Option Value
  | .object members => members.lookup name
  | _ => none

def find? (v : Value) : List String → Option Value
  | [] => some v
  | name :: path => (v.member? name).bind (find? · path)

end Value

def hexDigit (n : Nat) : Char := Nat.digitChar n

def escapeChar (c : Char) : List Char :=
  match c with
  | '"' => ['\\', '"']
  | '\\' => ['\\', '\\']
  | '\x08' => ['\\', 'b']
  | '\x0C' => ['\\', 'f']
  | '\n' => ['\\', 'n']
  | '\r' => ['\\', 'r']
  | '\t' => ['\\', 't']
  | _ =>
      if c.toNat < 0x20 then
        ['\\', 'u', '0', '0', hexDigit (c.toNat / 16), hexDigit (c.toNat % 16)]
      else [c]

def writeText (s : String) : List Char := '"' :: s.toList.flatMap escapeChar ++ ['"']

def writeReal (x : Float) : List Char :=
  if x.isFinite then Decimal.numeralOf x else "null".toList

def writeBool (b : Bool) : List Char := if b then "true".toList else "false".toList

mutual

def compact : Value → List Char
  | .null => "null".toList
  | .bool b => writeBool b
  | .natural n => Nat.toDigits 10 n
  | .real x => writeReal x
  | .text s => writeText s
  | .list [] => ['[', ']']
  | .list (v :: vs) => '[' :: compact v ++ compactItems vs
  | .object [] => ['\x7b', '\x7d']
  | .object ((k, v) :: ms) => '\x7b' :: writeText k ++ ':' :: compact v ++ compactMembers ms

def compactItems : List Value → List Char
  | [] => [']']
  | v :: vs => ',' :: compact v ++ compactItems vs

def compactMembers : List (String × Value) → List Char
  | [] => ['\x7d']
  | (k, v) :: ms => ',' :: writeText k ++ ':' :: compact v ++ compactMembers ms

end

def newLine (level : Nat) : List Char := '\n' :: List.replicate (2 * level) ' '

mutual

def pretty (level : Nat) : Value → List Char
  | .list [] => ['[', ']']
  | .list (v :: vs) => '[' :: newLine (level + 1) ++ pretty (level + 1) v ++ prettyItems level vs
  | .object [] => ['\x7b', '\x7d']
  | .object ((k, v) :: ms) =>
      '\x7b' :: newLine (level + 1) ++ writeText k ++ ':' :: ' ' :: pretty (level + 1) v ++
        prettyMembers level ms
  | .null => "null".toList
  | .bool b => writeBool b
  | .natural n => Nat.toDigits 10 n
  | .real x => writeReal x
  | .text s => writeText s

def prettyItems (level : Nat) : List Value → List Char
  | [] => newLine level ++ [']']
  | v :: vs => ',' :: newLine (level + 1) ++ pretty (level + 1) v ++ prettyItems level vs

def prettyMembers (level : Nat) : List (String × Value) → List Char
  | [] => newLine level ++ ['\x7d']
  | (k, v) :: ms =>
      ',' :: newLine (level + 1) ++ writeText k ++ ':' :: ' ' :: pretty (level + 1) v ++
        prettyMembers level ms

end

end StatAlmanac.Json
