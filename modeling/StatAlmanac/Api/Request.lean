import StatAlmanac.Text.Utf8

/-!
Requests, and how their parts are read: the segments of the path, the fields of
the query, numbers in fields, and the media type of the body.
-/

namespace StatAlmanac.Api

structure Request where
  method : String
  /-- The path, and the query behind a question mark. -/
  target : String
  headers : List (String × String)
  body : Bytes

/-- The value of a header, whatever the case of its name. -/
def Request.header? (r : Request) (name : String) : Option String :=
  (r.headers.find? fun h => h.1.toLower == name.toLower).map (·.2)

/-- The part of a text before the first `mark`, and the part behind it if there is one. -/
def cutAt (mark : Char) (s : List Char) : List Char × Option (List Char) :=
  match s.dropWhile (· != mark) with
  | [] => (s, none)
  | _ :: rest => (s.takeWhile (· != mark), some rest)

/-- The target from its path on, without a fragment. A target that does not start with a path names
a scheme and a host first, and behind them the path may be left out. -/
def Request.address (r : Request) : List Char :=
  match (cutAt '#' r.target.toList).1 with
  | '/' :: rest => '/' :: rest
  | s =>
      match s.dropWhile (· != ':') with
      | ':' :: '/' :: '/' :: host =>
          match host.dropWhile fun c => c != '/' && c != '?' with
          | '/' :: rest => '/' :: rest
          | rest => '/' :: rest
      | _ => []

def Request.segments (r : Request) : List (List Char) :=
  ((cutAt '?' r.address).1.splitOn '/').tail

def Request.query (r : Request) : List Char := (cutAt '?' r.address).2.getD []

def hexValue? (c : Char) : Option Nat :=
  if c.isDigit then some (c.toNat - '0'.toNat)
  else if 'a' ≤ c ∧ c ≤ 'f' then some (c.toNat - 'a'.toNat + 10)
  else if 'A' ≤ c ∧ c ≤ 'F' then some (c.toNat - 'A'.toNat + 10)
  else none

def hexByte? (a b : Char) : Option UInt8 := do
  return UInt8.ofNat (16 * (← hexValue? a) + (← hexValue? b))

/-- Percent escapes as their bytes, the first `skip` characters having been read. A percent sign
before anything but two digits stands for itself. -/
def unescapeFrom (skip : Nat) : List Char → Bytes
  | [] => []
  | c :: rest =>
      match skip with
      | skip + 1 => unescapeFrom skip rest
      | 0 =>
          match c, rest with
          | '%', a :: b :: _ =>
              match hexByte? a b with
              | some byte => byte :: unescapeFrom 2 rest
              | none => Text.Utf8.encodeChar c ++ unescapeFrom 0 rest
          | _, _ => Text.Utf8.encodeChar c ++ unescapeFrom 0 rest

def unescape (s : List Char) : Bytes := unescapeFrom 0 s

def decodeSegment? (s : List Char) : Option String :=
  (Text.Utf8.decode? (unescape s)).map String.ofList

/-- A name or value of the query; plus signs stand for spaces. -/
def decodeField (s : List Char) : String :=
  String.ofList (Text.Utf8.decodeLossy (unescape (s.map fun c => if c = '+' then ' ' else c)))

def queryFields (s : List Char) : List (String × String) :=
  ((s.splitOn '&').filter (!·.isEmpty)).map fun part =>
    let (name, value) := cutAt '=' part
    (decodeField name, decodeField (value.getD []))

/-- A decimal number below `bound`, perhaps behind a plus sign. -/
def readNatural? (bound : Nat) (s : List Char) : Option Nat :=
  let ds := match s with
    | '+' :: rest => rest
    | s => s
  let n := ds.foldl (fun n d => 10 * n + (d.toNat - '0'.toNat)) 0
  if !ds.isEmpty && ds.all Char.isDigit && n < bound then some n else none

def isTokenChar (c : Char) : Bool := c.isAlphanum || "!#$%&'*+-.^_\x60|~".toList.contains c

def isQuotable (c : Char) : Bool := 0x1F < c.toNat && c.toNat != 0x7F

/-- What follows a quoted value: blanks, and a semicolon or the end. -/
def nextParameter? (s : List Char) : Option (List Char) :=
  match s.dropWhile (· == ' ') with
  | [] => some []
  | ';' :: rest => some rest
  | _ => none

/-- Takes one parameter off the front, with the semicolon behind it. A quoted value has at least one
character. -/
def dropParameter? (s : List Char) : Option (List Char) :=
  match s.takeWhile isTokenChar, s.dropWhile isTokenChar with
  | _ :: _, '=' :: '"' :: c :: rest =>
      if isQuotable c then
        match rest.dropWhile fun d => d != '"' && isQuotable d with
        | '"' :: rest => nextParameter? rest
        | _ => none
      else none
  | _ :: _, '=' :: rest =>
      match rest.dropWhile isTokenChar with
      | [] => some []
      | ';' :: after => if after.length + 1 < rest.length then some after else none
      | _ => none
  | _, _ => none

def areParameters (fuel : Nat) (s : List Char) : Bool :=
  match fuel, s.dropWhile (· == ' ') with
  | _, [] => true
  | 0, _ => false
  | fuel + 1, s =>
      match dropParameter? s with
      | some rest => areParameters fuel rest
      | none => false

/-- The part of a subtype before its last plus sign, and the suffix behind it. A leading plus sign
is no such mark. -/
def splitSuffix (s : List Char) : List Char × Option (List Char) :=
  let suffix := (s.reverse.takeWhile (· != '+')).reverse
  if suffix.length + 1 < s.length then (s.take (s.length - suffix.length - 1), some suffix)
  else (s, none)

def isJsonType (value : String) : Bool :=
  let s := value.toList
  let (type, rest) := (s.takeWhile isTokenChar, s.dropWhile isTokenChar)
  match rest with
  | '/' :: rest =>
      let subtype := rest.takeWhile isTokenChar
      let isWhole := match rest.dropWhile isTokenChar with
        | [] => true
        | ';' :: parameters => !subtype.isEmpty && areParameters parameters.length parameters
        | _ => false
      let (core, suffix) := splitSuffix (subtype.map Char.toLower)
      s.all (fun c => c == '\t' || 0x20 ≤ c.toNat && c.toNat < 0x7F) && isWhole &&
        type.map Char.toLower == "application".toList &&
        (core == "json".toList || suffix == some "json".toList)
  | _ => false

end StatAlmanac.Api
