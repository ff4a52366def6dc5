import StatAlmanac.Text.Blank
import StatAlmanac.Time.Stamp

/-!
Stamps as text, such as `2024-05-01T12:00:00.250Z`. Written stamps have a
fraction of no, three, six or nine digits, show a leap second as the sixtieth,
and sign a year that does not have four digits. Reading allows more: blanks
around the parts, short numbers, other offsets from universal time, and the
separators `T`, `t` and space.
-/

namespace StatAlmanac.Stamp

open Text

def padded (width n : Nat) : List Char :=
  let ds := Nat.toDigits 10 n
  List.replicate (width - ds.length) '0' ++ ds

def writeYear (year : Int) : List Char :=
  if 0 ≤ year ∧ year ≤ 9999 then padded 4 year.toNat
  else (if year < 0 then '-' else '+') :: padded 4 year.natAbs

def writeDate (d : Date) : List Char :=
  writeYear d.year ++ '-' :: padded 2 d.month ++ '-' :: padded 2 d.day

def writeFraction (nanos : Nat) : List Char :=
  if nanos = 0 then []
  else if nanos % 1000000 = 0 then '.' :: padded 3 (nanos / 1000000)
  else if nanos % 1000 = 0 then '.' :: padded 6 (nanos / 1000)
  else '.' :: padded 9 nanos

/-- The stamp in universal time, which `zone` names. -/
def writeWith (zone : List Char) (s : Stamp) : List Char :=
  writeDate (.ofDay s.day) ++ 'T' :: padded 2 (s.second / 3600) ++
    ':' :: padded 2 (s.second / 60 % 60) ++
    ':' :: padded 2 (s.second % 60 + s.nanos / nanosPerSecond) ++
    writeFraction (s.nanos % nanosPerSecond) ++ zone

def write (s : Stamp) : List Char := writeWith ['Z'] s

/-- A reader takes what it reads off the front of a text. -/
abbrev Scan := StateT (List Char) Option

namespace Scan

def blanks : Scan Unit := modify trimStart

def choose {α : Type} (f : Char → Option α) : Scan α := fun s =>
  match s with
  | c :: rest => (f c).map (·, rest)
  | [] => none

def mark (c : Char) : Scan Unit := choose fun d => if d = c then some () else none

def ofDigits (ds : List Char) : Nat := ds.foldl (fun n d => 10 * n + (d.toNat - '0'.toNat)) 0

def allDigits (s : List Char) : List Char := s.takeWhile Char.isDigit

/-- The digits at the front, `most` at most; at least one has to stand there. -/
def digits (most : Nat) : Scan (List Char) := fun s =>
  match (allDigits s).take most with
  | [] => none
  | ds => some (ds, s.drop ds.length)

/-- A number of at most `most` digits, blanks in front. -/
def number (most : Nat) : Scan Nat := do
  blanks
  ofDigits <$> digits most

/-- A year of at most four digits, or one of any length behind a sign. -/
def year : Scan Int := do
  blanks
  match ← get with
  | '-' :: rest => do
      set rest
      return -(ofDigits (← digits rest.length) : Int)
  | '+' :: rest => do
      set rest
      return (ofDigits (← digits rest.length) : Int)
  | _ => return (ofDigits (← digits 4) : Int)

def among (low high n : Nat) : Scan Nat := if low ≤ n ∧ n ≤ high then pure n else failure

def day : Scan Int := do
  let year ← year
  blanks
  mark '-'
  let month ← number 2
  blanks
  mark '-'
  let date : Date := ⟨year, month, ← number 2⟩
  if date.isReal ∧ firstDay ≤ date.toDay ∧ date.toDay ≤ lastDay then return date.toDay
  else failure

def separator : Scan Unit := choose fun c => if c ∈ ['T', 't', ' '] then some () else none

/-- A second of the day and the nanoseconds of a whole second;
the sixtieth second is a leap second. -/
def clock : Scan (Nat × Nat) := do
  let hour ← among 0 23 (← number 2)
  blanks
  mark ':'
  let minute ← among 0 59 (← number 2)
  blanks
  mark ':'
  let second ← among 0 60 (← number 2)
  let past := hour * 3600 + minute * 60
  return if second = 60 then (past + 59, nanosPerSecond) else (past + second, 0)

/-- Nanoseconds behind a point. Digits from the tenth on are passed over. -/
def fraction : Scan Nat := fun s =>
  match s with
  | '.' :: rest =>
      match allDigits rest with
      | [] => none
      | ds =>
          let kept := ds.take 9
          some (ofDigits kept * pow10 (9 - kept.length), rest.drop ds.length)
  | _ => some (0, s)

def isMinus (c : Char) : Bool := c == '-' || c == '\u2212'

def twoDigits (bound : Char) : Scan Nat := do
  let tens ← choose fun c => if c.isDigit ∧ c < bound then some c else none
  let ones ← choose fun c => if c.isDigit then some c else none
  return ofDigits [tens, ones]

/-- Seconds that local time is ahead of universal time. -/
def numericOffset : Scan Int := do
  let sign : Int ← choose fun c => if c = '+' then some 1 else if isMinus c then some (-1) else none
  let hours ← twoDigits ':'
  modify fun s => s.dropWhile fun c => c == ':' || isBlank c
  let minutes ← twoDigits '6'
  if hours < 24 then return sign * ((hours * 3600 + minutes * 60 : Nat) : Int) else failure

def offset : Scan Int := do
  match ← get with
  | 'Z' :: rest | 'z' :: rest => do
      set rest
      return 0
  | a :: b :: c :: rest =>
      if lowerAscii [a, b, c] = ['u', 't', 'c'] then do
        set rest
        return 0
      else numericOffset
  | _ => numericOffset
where
  lowerAscii (s : List Char) : List Char := s.map Char.toLower

def stamp : Scan Stamp := do
  let day ← day
  separator
  let (second, leap) ← clock
  let nanos ← fraction
  blanks
  let universal := (second : Int) - (← offset)
  let days := universal / (secondsPerDay : Int)
  ofParts? (day + days) (universal - days * secondsPerDay).toNat (leap + nanos)

end Scan

def read? (s : List Char) : Option Stamp :=
  match Scan.stamp s with
  | some (stamp, rest) => if isAllBlank rest then some stamp else none
  | none => none

end StatAlmanac.Stamp
