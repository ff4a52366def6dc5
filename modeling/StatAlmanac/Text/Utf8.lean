/-!
Texts as bytes. `encode` writes one to four bytes a character. `scan` reads
bytes back: each well-formed sequence gives its character, and each longest
beginning of one that breaks off gives a single gap. A strict reader accepts no
gap, a lenient one shows U+FFFD for it.
-/

namespace StatAlmanac

abbrev Bytes := List UInt8

namespace Text.Utf8

def encodeChar (c : Char) : Bytes :=
  let n := c.toNat
  let tail (k : Nat) : UInt8 := UInt8.ofNat (0x80 + k % 64)
  if n < 0x80 then [UInt8.ofNat n]
  else if n < 0x800 then [UInt8.ofNat (0xC0 + n / 64), tail n]
  else if n < 0x10000 then [UInt8.ofNat (0xE0 + n / 4096), tail (n / 64), tail n]
  else [UInt8.ofNat (0xF0 + n / 262144), tail (n / 4096), tail (n / 64), tail n]

def encode (s : List Char) : Bytes := s.flatMap encodeChar

/-- What a first byte announces: its share of the code point, how many bytes follow, and the
bounds of the next one. -/
structure Lead where
  share : Nat
  more : Nat
  low : Nat
  high : Nat

def lead? (b : Nat) : Option Lead :=
  if b < 0x80 then some ⟨b, 0, 0, 0⟩
  else if b < 0xC2 then none
  else if b < 0xE0 then some ⟨b - 0xC0, 1, 0x80, 0xBF⟩
  else if b = 0xE0 then some ⟨0, 2, 0xA0, 0xBF⟩
  else if b = 0xED then some ⟨0xD, 2, 0x80, 0x9F⟩
  else if b < 0xF0 then some ⟨b - 0xE0, 2, 0x80, 0xBF⟩
  else if b = 0xF0 then some ⟨0, 3, 0x90, 0xBF⟩
  else if b < 0xF4 then some ⟨b - 0xF0, 3, 0x80, 0xBF⟩
  else if b = 0xF4 then some ⟨4, 3, 0x80, 0x8F⟩
  else none

/-- Reads the bytes that follow a first one; none if the sequence breaks off. -/
def follow (share : Nat) : (more low high : Nat) → Bytes → Option Nat × Bytes
  | 0, _, _, s => (some share, s)
  | _ + 1, _, _, [] => (none, [])
  | more + 1, low, high, b :: s =>
      if low ≤ b.toNat ∧ b.toNat ≤ high then
        follow (share * 64 + (b.toNat - 0x80)) more 0x80 0xBF s
      else (none, b :: s)

theorem follow_length_le (share more low high : Nat) (s : Bytes) :
    (follow share more low high s).2.length ≤ s.length := by
  induction more generalizing share low high s with
  | zero => simp [follow]
  | succ more ih =>
      cases s with
      | nil => simp [follow]
      | cons b s =>
          simp only [follow]
          split
          · exact Nat.le_trans (ih ..) (by simp)
          · simp

/-- The characters and gaps of a byte sequence, in order. -/
def scan : Bytes → List (Option Char)
  | [] => []
  | b :: s =>
      match lead? b.toNat with
      | none => none :: scan s
      | some l =>
          (follow l.share l.more l.low l.high s).1.map Char.ofNat ::
            scan (follow l.share l.more l.low l.high s).2
termination_by s => s.length
decreasing_by
  · simp
  · exact Nat.lt_of_le_of_lt (follow_length_le ..) (by simp)

def decode? (b : Bytes) : Option (List Char) := (scan b).mapM id

def decodeLossy (b : Bytes) : List Char := (scan b).map (·.getD '\uFFFD')

end Text.Utf8

end StatAlmanac
