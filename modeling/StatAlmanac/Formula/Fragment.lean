import StatAlmanac.Formula.Basic
import StatAlmanac.Text.Reader

/-!
Formulas written out on a page. A fragment is the text behind a label, such as
`: 645 (+ 99 × L)`. Five forms are known and tried in turn; each is a reader
with all its freedom of blanks, spellings and partial numerals, and the first
reading of the first form that gives numbers decides. A cap may follow.
-/

namespace StatAlmanac

open Text Text.Reader

namespace Fragment

def isDigit (c : Char) : Bool := '0' ≤ c && c ≤ '9'

/-- A digit, then digits and commas, then groups of a point and digits. -/
def numeral : Reader Span := spanOf do
  one isDigit
  many fun c => isDigit c || c == ','
  star do
    one (· == '.')
    one isDigit
    many isDigit

def lead : Reader Unit := many fun c => isBlank c || c == ':' || c == '='

def growthOpening : Reader Unit := do
  blanks
  one (· == '(')
  blanks
  one (· == '+')

def percentSign : Reader Unit := do
  blanks
  one (· == '%')

def times : Reader Unit := do
  blanks
  one (['×', 'x', 'X', '*', '·'].contains ·)
  blanks

def levelWord : Reader Unit :=
  (word "level".toList).orElse ((word "lvl".toList).orElse (word "l".toList))

def squareMark : Reader Unit :=
  (one (· == '²')).orElse ((do one (· == '^'); blanks; one (· == '2')).orElse (one (· == '2')))

def closing : Reader Unit := do
  blanks
  one (· == ')')

/-- A base value and the coefficient of its growth term; `tail` reads what stands between the
coefficient and the closing parenthesis. -/
def growthTerm (tail : Reader Unit) : Reader (Span × Span) := do
  lead
  let base ← numeral
  growthOpening
  blanks
  let coefficient ← numeral
  optional percentSign
  tail
  closing
  return (base, coefficient)

def quadraticTerm : Reader (Span × Span) := growthTerm do
  times
  levelWord
  blanks
  squareMark

def linearTerm : Reader (Span × Span) := growthTerm do
  times
  levelWord

def perLevelTerm : Reader (Span × Span) := growthTerm do
  blanks
  word "per".toList
  one isBlank
  blanks
  word "level".toList

def bareValue : Reader Span := do
  lead
  numeral

def percentValue : Reader Span := do
  let value ← bareValue
  percentSign
  return value

/-- A cap: `max`, `maximum` or `capped at` and a value, with or without a parenthesis. -/
def capValue : Reader Span := do
  blanks
  optional (one (· == '('))
  blanks
  (do word "max".toList; optional (word "imum".toList)).orElse
    (do word "capped".toList; one isBlank; blanks; word "at".toList)
  blanks
  optional (one (· == ':'))
  blanks
  numeral

def decimalValue? (s : List Char) : Option Float :=
  match s.splitOn '.' with
  | [whole] => some (Float.ofScientific (digitsValue whole) false 0)
  | [whole, fraction] =>
    some (Float.ofScientific (digitsValue (whole ++ fraction)) true fraction.length)
  | _ => none
where
  digitsValue (ds : List Char) : Nat := ds.foldl (fun n d => 10 * n + (d.toNat - '0'.toNat)) 0

/-- The value of a numeral: its commas do not count, and a second point makes it none. -/
def Span.value? (s : Span) : Option Float := decimalValue? (s.text.filter (· != ','))

inductive Form where
  | quadratic
  | linear
  | percentage
  | perLevel
  | bare
  deriving DecidableEq, Repr

def priority : List Form := [.quadratic, .linear, .percentage, .perLevel, .bare]

def growthReading? (term : Reader (Span × Span)) (make : Float → Float → Formula) (s : List Char) :
    Option (Formula × List Char) := do
  let ((base, coefficient), rest) ← term.first? s
  return (make (← Span.value? base) (← Span.value? coefficient), rest)

/-- The formula of one form at the front of a fragment, and the text behind it. A bare value must
not be followed by the opening of a growth term. -/
def Form.reading? (s : List Char) : Form → Option (Formula × List Char)
  | .quadratic => growthReading? quadraticTerm Formula.quadratic s
  | .linear => growthReading? linearTerm Formula.linear s
  | .perLevel => growthReading? perLevelTerm Formula.linear s
  | .percentage => do
      let (value, rest) ← percentValue.first? s
      return (.percentage (← Span.value? value), rest)
  | .bare => do
      let (value, rest) ← bareValue.first? s
      guard (growthOpening.first? rest).isNone
      return (.flat (← Span.value? value), rest)

def cap? (rest : List Char) : Option Float := do
  let (value, _) ← capValue.first? rest
  Span.value? value

def Form.read? (s : List Char) (form : Form) : Option Formula := do
  let (formula, rest) ← form.reading? s
  match cap? rest with
  | some cap => return formula.withCap cap
  | none => return formula

def readBy (order : List Form) (s : List Char) : Option Formula := order.findSome? (·.read? s)

def read (s : List Char) : Option Formula := readBy priority s

end Fragment

end StatAlmanac
