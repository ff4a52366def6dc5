import StatAlmanac.Decimal.Power

/-!
The shortest decimal of a binary64 number: of the decimals that lie among the
reals rounding to the number, one with the fewest digits, and of those the
nearest. All comparisons are exact, on naturals.
-/

namespace StatAlmanac

/-- The number `digits * 10 ^ exponent`. -/
structure Decimal where
  digits : Nat
  exponent : Int
  deriving Repr, DecidableEq

namespace Decimal

/-- A finite number without its sign, `significand * 2 ^ exponent`. Its lower neighbour is half as
far away as its upper one when `narrow` holds. -/
structure Binary where
  significand : Nat
  exponent : Int
  narrow : Bool

def Binary.ofBits (bits : UInt64) : Binary :=
  let field : Nat := bits.toNat / pow2 52 % pow2 11
  let fraction : Nat := bits.toNat % pow2 52
  if field = 0 then ⟨fraction, -1074, false⟩
  else ⟨pow2 52 + fraction, (field : Int) - 1075, fraction == 0 && field != 1⟩

def up (i : Int) : Nat := i.toNat

def down (i : Int) : Nat := (-i).toNat

def compareTo (d : Decimal) (n : Nat) (j : Int) : Ordering :=
  compare (d.digits * pow10 (up d.exponent) * pow2 (down j))
    (n * pow2 (up j) * pow10 (down d.exponent))

/-- `d` lies among the reals that round to `x`; the two ends do so when the significand is even. -/
def Binary.covers (x : Binary) (d : Decimal) : Bool :=
  let least := 4 * x.significand - if x.narrow then 1 else 2
  let most := 4 * x.significand + 2
  let atLow := d.compareTo least (x.exponent - 2)
  let atHigh := d.compareTo most (x.exponent - 2)
  let closed := x.significand % 2 == 0
  (atLow == .gt || closed && atLow == .eq) && (atHigh == .lt || closed && atHigh == .eq)

/-- The number of digits before the point; zero or less counts the zeros behind it. -/
def Binary.magnitude (x : Binary) : Int :=
  let above := x.significand * pow2 (up x.exponent)
  let below := pow2 (down x.exponent)
  let count (n : Nat) : Int := (Nat.toDigits 10 n).length
  if below ≤ above then count (above / below) else 1 - count (below / above)

/-- The neighbour of `x` among the multiples of `10 ^ exponent` that rounds to `x`, if there is one:
the nearer of two, the even one of two equally near. -/
def Binary.onGrid? (x : Binary) (exponent : Int) : Option Decimal :=
  let above := x.significand * pow2 (up x.exponent) * pow10 (down exponent)
  let below := pow2 (down x.exponent) * pow10 (up exponent)
  let floor := above / below
  let lower : Decimal := ⟨floor, exponent⟩
  let upper : Decimal := ⟨floor + 1, exponent⟩
  match x.covers lower, x.covers upper with
  | true, false => some lower
  | false, true => some upper
  | false, false => none
  | true, true =>
      match compare (2 * above) ((2 * floor + 1) * below) with
      | .lt => some lower
      | .gt => some upper
      | .eq => some (if floor % 2 == 0 then lower else upper)

/-- Takes zeros off the end of the digits, at most `fuel` of them. -/
def strip : (fuel : Nat) → Decimal → Decimal
  | 0, d => d
  | fuel + 1, d =>
      if d.digits % 10 == 0 && d.digits != 0 then strip fuel ⟨d.digits / 10, d.exponent + 1⟩ else d

/-- The value itself, on a grid fine enough to hold it. -/
def Binary.exact (x : Binary) : Decimal :=
  ⟨x.significand * pow2 (up x.exponent) * Nat.pow 5 (down x.exponent), -(down x.exponent : Int)⟩

/-- Tries one digit, then two, up to the seventeen that always suffice. -/
def Binary.shortest (x : Binary) : Decimal :=
  let tries := (List.range 17).findSome? fun (n : Nat) =>
    x.onGrid? (x.magnitude - (n + 1 : Nat))
  strip 17 (tries.getD x.exact)

def ofFloat (x : Float) : Decimal :=
  let b := Binary.ofBits x.toBits
  if b.significand = 0 then ⟨0, 0⟩ else b.shortest

end Decimal

end StatAlmanac
