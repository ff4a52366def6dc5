import StatAlmanac.Entity.Kind
import StatAlmanac.Text.Letter
import StatAlmanac.Text.Utf8

/-!
Names of entities. A name is put into its usual spelling: single spaces, and
the first letter of each word in upper case. From that come the segment of an
address, with reserved characters percent-encoded, and the key of a cache
entry, which uses only a to z, 0 to 9, `_` and `-` and differs for names that
differ by more than case.
-/

namespace StatAlmanac.Name

open Text

def capitalize : List Char → List Char
  | [] => []
  | c :: rest => if isLetter c then upper c ++ rest else c :: capitalize rest

def normalize (s : List Char) : List Char := unwords ((words s).map capitalize)

/-- Characters that may not stand in a segment as they are. -/
def reserved : List Char := ['\'', '"', '#', '%', '&', '+', '/', '?', '<', '>', '\\']

def isControl (c : Char) : Bool := c.toNat < 0x20 || c.toNat == 0x7F

def isEscaped (c : Char) : Bool := reserved.contains c || isControl c

def twoDigits (digit : Nat → Char) (n : Nat) : List Char := [digit (n / 16 % 16), digit (n % 16)]

def upperDigit (n : Nat) : Char := (Nat.digitChar n).toUpper

def segmentChar (c : Char) : List Char :=
  if c = ' ' then ['_']
  else if isEscaped c then '%' :: twoDigits upperDigit c.toNat
  else [c]

def segment (s : List Char) : List Char := (normalize s).flatMap segmentChar

def isPlain (c : Char) : Bool := 'a' ≤ c && c ≤ 'z' || '0' ≤ c && c ≤ '9'

def slugChar (c : Char) : List Char :=
  if isPlain c then [c]
  else if c = ' ' then ['_']
  else (Utf8.encodeChar c).flatMap fun b => '-' :: twoDigits Nat.digitChar b.toNat

/-- A name in lower case, all but letters, digits and spaces written by their bytes. -/
def slug (s : List Char) : List Char := (lowerText (normalize s)).flatMap slugChar

def key (k : Kind) (s : List Char) : List Char := k.name.toList ++ '_' :: slug s

end StatAlmanac.Name
