import StatAlmanac.Json.Number
import StatAlmanac.Text.Utf8

/-!
The tokens of a JSON text. The text is read byte by byte, each byte standing
for the character of its number; what a string holds between ASCII characters
is decoded when the string is complete. At the first place that starts no token
the list ends with `broken`.
-/

namespace StatAlmanac.Json

open Text

inductive Token where
  | openObject
  | closeObject
  | openList
  | closeList
  | colon
  | comma
  | null
  | bool (b : Bool)
  /-- None if the number is beyond the finite ones. -/
  | number (n : Option Number)
  /-- None if the string is no text: half of a surrogate pair, or bytes that are no characters. -/
  | text (s : Option String)
  | broken

/-- Part of a string: a byte, or a 16-bit unit written by its number. -/
inductive Piece where
  | byte (b : UInt8)
  | unit (n : Nat)

def hexValue? (c : Char) : Option Nat :=
  if '0' ≤ c ∧ c ≤ '9' then some (c.toNat - '0'.toNat)
  else if 'a' ≤ c ∧ c ≤ 'f' then some (c.toNat - 'a'.toNat + 10)
  else if 'A' ≤ c ∧ c ≤ 'F' then some (c.toNat - 'A'.toNat + 10)
  else none

def unit? (a b c d : Char) : Option Nat := do
  return (((← hexValue? a) * 16 + (← hexValue? b)) * 16 + (← hexValue? c)) * 16 + (← hexValue? d)

def escaped? : Char → Option Char
  | '"' => some '"'
  | '\\' => some '\\'
  | '/' => some '/'
  | 'b' => some '\x08'
  | 'f' => some '\x0C'
  | 'n' => some '\n'
  | 'r' => some '\r'
  | 't' => some '\t'
  | _ => none

def byteOf (c : Char) : UInt8 := UInt8.ofNat c.toNat

def scanString : List Char → Option (List Piece × List Char)
  | [] => none
  | '"' :: rest => some ([], rest)
  | '\\' :: 'u' :: a :: b :: c :: d :: rest =>
      match unit? a b c d, scanString rest with
      | some n, some (ps, after) => some (.unit n :: ps, after)
      | _, _ => none
  | '\\' :: e :: rest =>
      match escaped? e, scanString rest with
      | some c, some (ps, after) => some (.byte (byteOf c) :: ps, after)
      | _, _ => none
  | c :: rest =>
      if c.toNat < 0x20 then none
      else match scanString rest with
        | some (ps, after) => some (.byte (byteOf c) :: ps, after)
        | none => none

def isHighSurrogate (n : Nat) : Bool := 0xD800 ≤ n && n < 0xDC00

def isLowSurrogate (n : Nat) : Bool := 0xDC00 ≤ n && n < 0xE000

/-- The bytes of a string; surrogates have to come in pairs. -/
def bytes? : List Piece → Option Bytes
  | [] => some []
  | .byte b :: ps => (bytes? ps).map (b :: ·)
  | .unit n :: ps =>
      if isLowSurrogate n then none
      else if isHighSurrogate n then
        match ps with
        | .unit m :: rest =>
            if isLowSurrogate m then
              let c := Char.ofNat (0x10000 + (n - 0xD800) * 0x400 + (m - 0xDC00))
              (bytes? rest).map (Utf8.encodeChar c ++ ·)
            else none
        | _ => none
      else (bytes? ps).map (Utf8.encodeChar (Char.ofNat n) ++ ·)

def string? (ps : List Piece) : Option String := do
  return String.ofList (← Utf8.decode? (← bytes? ps))

def isSpace (c : Char) : Bool := c == ' ' || c == '\n' || c == '\r' || c == '\t'

def scanToken (c : Char) (rest : List Char) : Option (Token × List Char) :=
  match c, rest with
  | '{', _ => some (.openObject, rest)
  | '}', _ => some (.closeObject, rest)
  | '[', _ => some (.openList, rest)
  | ']', _ => some (.closeList, rest)
  | ':', _ => some (.colon, rest)
  | ',', _ => some (.comma, rest)
  | 'n', 'u' :: 'l' :: 'l' :: after => some (.null, after)
  | 't', 'r' :: 'u' :: 'e' :: after => some (.bool true, after)
  | 'f', 'a' :: 'l' :: 's' :: 'e' :: after => some (.bool false, after)
  | '"', _ => (scanString rest).map fun (ps, after) => (.text (string? ps), after)
  | '-', _ => (scanNumeral true rest).map fun (n, after) => (.number n.number?, after)
  | _, _ => (scanNumeral false (c :: rest)).map fun (n, after) => (.number n.number?, after)

theorem length_of_scanString {s : List Char} {r : List Piece × List Char}
    (h : scanString s = some r) : r.2.length < s.length := by
  fun_induction scanString s generalizing r with
  | case1 => cases h
  | case2 rest => cases h; simp
  | case3 a b c d rest n ps after hs hn ih =>
      cases h
      have := ih hs
      simp only [List.length_cons] at *
      omega
  | case4 => cases h
  | case5 e rest _ c ps after hs hc ih =>
      cases h
      have := ih hs
      simp only [List.length_cons] at *
      omega
  | case6 => cases h
  | case7 => cases h
  | case8 c rest _ _ _ _ ps after hs ih =>
      cases h
      have := ih hs
      simp only [List.length_cons] at *
      omega
  | case9 => cases h

theorem length_of_scanToken {c : Char} {rest : List Char} {r : Token × List Char}
    (h : scanToken c rest = some r) : r.2.length ≤ rest.length := by
  unfold scanToken at h
  split at h
  case h_10 =>
    simp only [Option.map_eq_some_iff] at h
    obtain ⟨a, ha, rfl⟩ := h
    exact Nat.le_of_lt (length_of_scanString ha)
  case h_11 =>
    simp only [Option.map_eq_some_iff] at h
    obtain ⟨a, ha, rfl⟩ := h
    exact Nat.le_of_lt (length_of_scanNumeral ha)
  case h_12 =>
    simp only [Option.map_eq_some_iff] at h
    obtain ⟨a, ha, rfl⟩ := h
    have := length_of_scanNumeral ha
    simp only [List.length_cons] at this
    exact Nat.le_of_lt_succ this
  all_goals
    cases h
    simp only [List.length_cons]
    omega

def tokensOf : List Char → List Token
  | [] => []
  | c :: rest =>
      if isSpace c then tokensOf rest
      else match _h : scanToken c rest with
        | some r => r.1 :: tokensOf r.2
        | none => [.broken]
termination_by s => s.length
decreasing_by
  · simp
  · exact Nat.lt_succ_of_le (length_of_scanToken ‹_›)

def tokens (body : Bytes) : List Token := tokensOf (body.map fun b => Char.ofNat b.toNat)

end StatAlmanac.Json
