/-!
Days and dates of the Gregorian calendar, run back and forth without end. Days
are counted from the first of January of the year 1970.
-/

namespace StatAlmanac

structure Date where
  year : Int
  month : Nat
  day : Nat
  deriving DecidableEq, Repr

namespace Calendar

def isLeapYear (year : Int) : Bool := year % 4 == 0 && (year % 100 != 0 || year % 400 == 0)

/-- Days from the first day of the year 1 to the first day of `year`. -/
def daysBefore (year : Int) : Int :=
  let past := year - 1
  365 * past + past / 4 - past / 100 + past / 400

/-- The first day of 1970, counted from the first day of the year 1. -/
def epoch : Int := daysBefore 1970

def monthLengths (isLeap : Bool) : List Nat :=
  [31, if isLeap then 29 else 28, 31, 30, 31, 30, 31, 31, 30, 31, 30, 31]

def lengthOfMonth (year : Int) (month : Nat) : Nat :=
  (monthLengths (isLeapYear year)).getD (month - 1) 0

def daysBeforeMonth (isLeap : Bool) (month : Nat) : Nat :=
  ((monthLengths isLeap).take (month - 1)).foldr (· + ·) 0

/-- The month and the day of the month at which the `rest`th day behind the start of
`month` lies. -/
def place (month rest : Nat) : List Nat → Nat × Nat
  | [] => (month, rest + 1)
  | length :: lengths =>
      if rest < length then (month, rest + 1) else place (month + 1) (rest - length) lengths

/-- The year in which the `n`th day from the start of the year 1 lies. The first guess is right or
one too low. -/
def yearOf (n : Int) : Int :=
  let guess := n * 400 / 146097 + 1
  if daysBefore (guess + 1) ≤ n then guess + 1 else guess

end Calendar

open Calendar

def Date.isReal (d : Date) : Bool :=
  1 ≤ d.month && d.month ≤ 12 && 1 ≤ d.day && d.day ≤ lengthOfMonth d.year d.month

def Date.toDay (d : Date) : Int :=
  daysBefore d.year - epoch + (daysBeforeMonth (isLeapYear d.year) d.month + (d.day - 1) : Nat)

def Date.ofDay (day : Int) : Date :=
  let year := yearOf (day + epoch)
  let rest := (day + epoch - daysBefore year).toNat
  let (month, day) := place 1 rest (monthLengths (isLeapYear year))
  ⟨year, month, day⟩

end StatAlmanac
