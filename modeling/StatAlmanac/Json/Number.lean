import StatAlmanac.Decimal.Power

/-!
Numbers in JSON texts. Integers of 64 bits are kept as such. Every other number
becomes a binary64 number from its leading digits, as many as fit into 64 bits,
and one or two multiplications or divisions by a power of ten; a number beyond
the finite ones is refused.
-/

namespace StatAlmanac.Json

inductive Number where
  /-- Below 2^64. -/
  | natural (n : Nat)
  /-- The negative of `n`, which is positive and at most 2^63. -/
  | negative (n : Nat)
  | real (x : Float)

def Number.toFloat : Number → Float
  | .natural n => Float.ofNat n
  | .negative n => -Float.ofNat n
  | .real x => x

structure Numeral where
  isNegative : Bool
  whole : List Char
  fraction : Option (List Char)
  /-- Whether the exponent is negative, and its digits. -/
  exponent : Option (Bool × List Char)

def isDigit (c : Char) : Bool := '0' ≤ c && c ≤ '9'

def digitValue (c : Char) : Nat := c.toNat - '0'.toNat

def digitsValue (ds : List Char) : Nat := ds.foldl (fun n d => 10 * n + digitValue d) 0

def maxSignificand : Nat := bound64 - 1

/-- Appends digits to a significand up to the first that does not fit; counts the appended ones. -/
def absorb (significand : Nat) : List Char → Nat × Nat
  | [] => (significand, 0)
  | d :: ds =>
      let next := significand * 10 + digitValue d
      if next ≤ maxSignificand then
        let (total, count) := absorb next ds
        (total, count + 1)
      else (significand, 0)

def Numeral.parts (n : Numeral) : Nat × Int :=
  let (whole, used) := absorb 0 n.whole
  let (all, behind) := absorb whole (n.fraction.getD [])
  (all, (n.whole.length : Int) - used - behind)

def maxPower : Int := 308

def tenTo (n : Nat) : Float := Float.ofScientific 1 false n

/-- `significand * 10 ^ exponent`, or none beyond the finite numbers. A significand has at most
twenty digits, so that two steps down are enough to reach zero. -/
def scaled? (significand : Nat) (exponent : Int) : Option Float :=
  let x := Float.ofNat significand
  if 0 ≤ exponent then
    if exponent ≤ maxPower then
      let y := x * tenTo exponent.toNat
      if y.isInf then none else some y
    else if significand = 0 then some x else none
  else if -maxPower ≤ exponent then some (x / tenTo (-exponent).toNat)
  else if -(2 * maxPower) ≤ exponent then
    some (x / tenTo maxPower.toNat / tenTo (-exponent - maxPower).toNat)
  else some 0

def maxExponent : Nat := 0x7FFFFFFF

def Numeral.magnitude? (n : Numeral) : Option Float :=
  let (significand, power) := n.parts
  match n.exponent with
  | none => scaled? significand power
  | some (isNegative, ds) =>
      let e := digitsValue ds
      if maxExponent < e then
        if significand ≠ 0 && !isNegative then none else some 0
      else scaled? significand (if isNegative then power - e else power + e)

/-- The number of a numeral. Without fraction and exponent it is an integer if it fits. -/
def Numeral.number? (n : Numeral) : Option Number :=
  let whole := digitsValue n.whole
  if n.fraction.isNone && n.exponent.isNone && whole ≤ maxSignificand then
    if !n.isNegative then some (.natural whole)
    else if whole = 0 || bound64 / 2 < whole then some (.real (-Float.ofNat whole))
    else some (.negative whole)
  else n.magnitude?.map fun x => .real (if n.isNegative then -x else x)

def scanDigits (s : List Char) : List Char × List Char := (s.takeWhile isDigit, s.dropWhile isDigit)

/-- One zero, or digits that do not start with zero. -/
def isWhole : List Char → Bool
  | [] => false
  | d :: ds => d != '0' || ds.isEmpty

def scanWhole (s : List Char) : Option (List Char × List Char) :=
  if isWhole (scanDigits s).1 then some (scanDigits s) else none

def scanFraction : List Char → Option (Option (List Char) × List Char)
  | '.' :: s =>
      match scanDigits s with
      | ([], _) => none
      | (ds, rest) => some (some ds, rest)
  | s => some (none, s)

def scanSign : List Char → Bool × List Char
  | '-' :: s => (true, s)
  | '+' :: s => (false, s)
  | s => (false, s)

def scanExponent (s : List Char) : Option (Option (Bool × List Char) × List Char) :=
  match s with
  | [] => some (none, s)
  | c :: t =>
      if c = 'e' ∨ c = 'E' then
        match scanDigits (scanSign t).2 with
        | ([], _) => none
        | (ds, rest) => some (some ((scanSign t).1, ds), rest)
      else some (none, s)

def scanNumeral (isNegative : Bool) (s : List Char) : Option (Numeral × List Char) := do
  let (whole, s) ← scanWhole s
  let (fraction, s) ← scanFraction s
  let (exponent, s) ← scanExponent s
  return (⟨isNegative, whole, fraction, exponent⟩, s)

theorem length_scanDigits (s : List Char) :
    (scanDigits s).1.length + (scanDigits s).2.length = s.length := by
  simp [scanDigits, ← List.length_append]

theorem length_of_scanWhole {s : List Char} {r : List Char × List Char}
    (h : scanWhole s = some r) : r.2.length < s.length := by
  have hlen := length_scanDigits s
  unfold scanWhole at h
  split at h
  · rename_i hw
    cases h
    cases hd : (scanDigits s).1 with
    | nil => simp [hd, isWhole] at hw
    | cons d ds =>
        simp only [hd, List.length_cons] at hlen
        omega
  · cases h

theorem length_of_scanFraction {s : List Char} {r : Option (List Char) × List Char}
    (h : scanFraction s = some r) : r.2.length ≤ s.length := by
  unfold scanFraction at h
  split at h
  · rename_i t
    have hlen := length_scanDigits t
    split at h
    · cases h
    · rename_i heq
      cases h
      simp only [heq] at hlen
      simp only [List.length_cons]
      omega
  · cases h
    simp

theorem length_scanSign (s : List Char) : (scanSign s).2.length ≤ s.length := by
  unfold scanSign
  split <;> simp

theorem length_of_scanExponent {s : List Char} {r : Option (Bool × List Char) × List Char}
    (h : scanExponent s = some r) : r.2.length ≤ s.length := by
  unfold scanExponent at h
  split at h
  · cases h
    simp
  · rename_i c t
    split at h
    · have hsign := length_scanSign t
      have hlen := length_scanDigits (scanSign t).2
      split at h
      · cases h
      · rename_i heq
        cases h
        simp only [heq] at hlen
        simp only [List.length_cons]
        omega
    · cases h
      simp

theorem length_of_scanNumeral {isNegative : Bool} {s : List Char} {r : Numeral × List Char}
    (h : scanNumeral isNegative s = some r) : r.2.length < s.length := by
  simp only [scanNumeral, Option.bind_eq_bind, Option.bind_eq_some_iff] at h
  obtain ⟨a, ha, b, hb, c, hc, hr⟩ := h
  cases hr
  have h1 := length_of_scanWhole ha
  have h2 := length_of_scanFraction hb
  have h3 := length_of_scanExponent hc
  simp only
  omega

end StatAlmanac.Json
