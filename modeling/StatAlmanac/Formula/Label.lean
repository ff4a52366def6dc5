import StatAlmanac.Formula.Fragment

/-!
Formulas by label. A label is found wherever its name stands as a whole word,
case aside; occurrences of one name are taken from left to right without
overlap. The fragment behind an occurrence may hold a formula. A text without
labels that starts with a digit is itself a fragment.
-/

namespace StatAlmanac

open Text

namespace Label

def isEdge (before after : Option Char) : Bool := before.any isWordChar != after.any isWordChar

/-- Reads `name` off the text; gives the last character read and the rest. -/
def readName? (before : Option Char) : (name s : List Char) → Option (Option Char × List Char)
  | [], s => some (before, s)
  | _ :: _, [] => none
  | a :: name, b :: s => if sameLetter a b then readName? (some b) name s else none

/-- What is behind `name` when it stands as a whole word at the front of `s`. -/
def behind? (name : List Char) (before : Option Char) (s : List Char) : Option (List Char) := do
  guard (isEdge before s.head?)
  let (last, rest) ← readName? before name s
  guard (isEdge last rest.head?)
  return rest

/-- The text behind each occurrence. The next `skip` characters belong to the last one found. -/
def occurrencesFrom (name : List Char) (before : Option Char) (skip : Nat) :
    List Char → List (List Char)
  | [] => []
  | c :: s =>
      match skip with
      | skip + 1 => occurrencesFrom name (some c) skip s
      | 0 =>
          match behind? name before (c :: s) with
          | some rest => rest :: occurrencesFrom name (some c) (name.length - 1) s
          | none => occurrencesFrom name (some c) 0 s

def occurrences (name text : List Char) : List (List Char) := occurrencesFrom name none 0 text

/-- The names without outer blanks; blank ones name nothing. -/
def clean (names : List (List Char)) : List (List Char) :=
  (names.map trim).filter fun name => !name.isEmpty

def fragments (text : List Char) (names : List (List Char)) : List (List Char) :=
  (clean names).flatMap (occurrences · text)

def startsWithDigit (text : List Char) : Bool := (trimStart text).head?.any Fragment.isDigit

end Label

/-- The first formula for one of the names: names in the given order, occurrences from left to
right. Only a text without any occurrence is read as a fragment. -/
def Formula.find? (text : List Char) (names : List (List Char)) : Option Formula :=
  match Label.fragments text names with
  | [] => if !names.isEmpty && Label.startsWithDigit text then Fragment.read text else none
  | found => found.findSome? Fragment.read

namespace Label

/-- Puts a fragment among others ordered by how much text is left, most first; each place once. -/
def placeByLength (left : Nat) (fragment : List Char) :
    List (Nat × List Char) → List (Nat × List Char)
  | [] => [(left, fragment)]
  | f :: rest =>
      if f.1 < left then (left, fragment) :: f :: rest
      else if f.1 = left then f :: rest
      else f :: placeByLength left fragment rest

def inTextOrder (fragments : List (List Char)) : List (List Char) :=
  (fragments.foldl (fun placed f => placeByLength f.length f placed) []).map (·.2)

end Label

/-- All formulas for the names, in the order of the text. A text none of whose labels has a value is
read as a fragment. -/
def Formula.findAll (text : List Char) (names : List (List Char)) : List Formula :=
  match (Label.inTextOrder (Label.fragments text names)).filterMap Fragment.read with
  | [] =>
      if !names.isEmpty && Label.startsWithDigit text then (Fragment.read text).toList else []
  | found => found

end StatAlmanac
