import StatAlmanac.Decimal.Shortest

/-!
Numbers as text. A finite number is written with its shortest digits and always
shows a point or an exponent: positional from 0.00001 up to sixteen digits
before the point, with a signed exponent elsewhere. In messages the numbers that
are not finite go by their names.
-/

namespace StatAlmanac

namespace Decimal

def isNegative (x : Float) : Bool := bound64 / 2 ≤ x.toBits.toNat

def digitList (n : Nat) : List Char := Nat.toDigits 10 n

def zeros (n : Int) : List Char := List.replicate n.toNat '0'

/-- Leading-digit exponents from `plainFrom` on and below `plainBelow` are written positionally. -/
def plainFrom : Int := -5

def plainBelow : Int := 16

def positional (ds : List Char) (point : Int) : List Char :=
  if point ≤ 0 then ['0', '.'] ++ zeros (-point) ++ ds
  else if (ds.length : Int) ≤ point then ds ++ zeros (point - ds.length) ++ ['.', '0']
  else ds.take point.toNat ++ ['.'] ++ ds.drop point.toNat

def scientific (ds : List Char) (lead : Int) : List Char :=
  let mantissa := match ds with
    | d :: e :: rest => d :: '.' :: e :: rest
    | ds => ds
  let sign := if lead < 0 then '-' else '+'
  mantissa ++ ['e', sign] ++ digitList lead.natAbs

def numeral (d : Decimal) : List Char :=
  let ds := digitList d.digits
  let point := (ds.length : Int) + d.exponent
  if d.digits = 0 then ['0', '.', '0']
  else if plainFrom ≤ point - 1 ∧ point - 1 < plainBelow then positional ds point
  else scientific ds (point - 1)

def numeralOf (x : Float) : List Char :=
  (if isNegative x then ['-'] else []) ++ (ofFloat x).numeral

def oddName (x : Float) : String :=
  if x.isNaN then "NaN" else if isNegative x then "-inf" else "inf"

end Decimal

end StatAlmanac
