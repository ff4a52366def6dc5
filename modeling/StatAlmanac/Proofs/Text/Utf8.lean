import StatAlmanac.Text.Utf8

/-!
Reading back what was written as bytes: every character is found again at the
place where its bytes stand, so that a written text has no gap.
-/

namespace StatAlmanac.Text.Utf8

theorem toNat_byte {n : Nat} (h : n < 256) : (UInt8.ofNat n).toNat = n := by
  rw [UInt8.toNat_ofNat', Nat.mod_eq_of_lt (by omega)]

theorem toNat_bounds (c : Char) : c.toNat < 0xD800 ∨ 0xDFFF < c.toNat ∧ c.toNat < 0x110000 :=
  c.valid

theorem follow_cons {share more low high : Nat} {b : UInt8} (s : Bytes)
    (hlow : low ≤ b.toNat) (hhigh : b.toNat ≤ high) :
    follow share (more + 1) low high (b :: s) =
      follow (share * 64 + (b.toNat - 0x80)) more 0x80 0xBF s := by
  simp only [follow, hlow, hhigh, and_self, if_true]

theorem scan_cons {b : UInt8} {l : Lead} (s : Bytes) (h : lead? b.toNat = some l) :
    scan (b :: s) =
      (follow l.share l.more l.low l.high s).1.map Char.ofNat ::
        scan (follow l.share l.more l.low l.high s).2 := by
  rw [scan]
  simp only [h]

/-- What a first byte announces decides how the bytes behind it are read. -/
theorem scan_sequence {b : UInt8} {share more low high : Nat} {s rest : Bytes} {c : Char}
    (hlead : lead? b.toNat = some ⟨share, more, low, high⟩)
    (hfollow : follow share more low high s = (some c.toNat, rest)) :
    scan (b :: s) = some c :: scan rest := by
  rw [scan_cons s hlead, hfollow]
  simp only [Option.map_some, Char.ofNat_toNat]

theorem toNat_tail (k : Nat) : (UInt8.ofNat (0x80 + k % 64)).toNat = 0x80 + k % 64 :=
  toNat_byte (by omega)

theorem follow_tail {share more k : Nat} (s : Bytes) :
    follow share (more + 1) 0x80 0xBF (UInt8.ofNat (0x80 + k % 64) :: s) =
      follow (share * 64 + k % 64) more 0x80 0xBF s := by
  rw [follow_cons s (by rw [toNat_tail]; omega) (by rw [toNat_tail]; omega), toNat_tail,
    Nat.add_sub_cancel_left]

theorem lead?_two {n : Nat} (h1 : ¬n < 0x80) (h2 : n < 0x800) :
    lead? (0xC0 + n / 64) = some ⟨n / 64, 1, 0x80, 0xBF⟩ := by
  rw [lead?, if_neg (by omega), if_neg (by omega), if_pos (by omega), Nat.add_sub_cancel_left]

/-- The second byte has bounds of its own behind E0 and behind ED. -/
theorem lead?_three {n : Nat} (h3 : n < 0x10000) :
    lead? (0xE0 + n / 4096) =
      some ⟨n / 4096, 2, if n / 4096 = 0 then 0xA0 else 0x80,
        if n / 4096 = 13 then 0x9F else 0xBF⟩ := by
  rw [lead?, if_neg (by omega), if_neg (by omega), if_neg (by omega)]
  by_cases h0 : n / 4096 = 0
  · simp [h0]
  · by_cases hD : n / 4096 = 13
    · simp [hD]
    · rw [if_neg (by omega), if_neg (by omega), if_pos (by omega), if_neg h0, if_neg hD,
        Nat.add_sub_cancel_left]

theorem lead?_four {n : Nat} (h4 : n < 0x110000) :
    lead? (0xF0 + n / 262144) =
      some ⟨n / 262144, 3, if n / 262144 = 0 then 0x90 else 0x80,
        if n / 262144 = 4 then 0x8F else 0xBF⟩ := by
  rw [lead?, if_neg (by omega), if_neg (by omega), if_neg (by omega), if_neg (by omega),
    if_neg (by omega), if_neg (by omega)]
  by_cases h0 : n / 262144 = 0
  · simp [h0]
  · by_cases h4 : n / 262144 = 4
    · simp [h4]
    · rw [if_neg (by omega), if_pos (by omega), if_neg h0, if_neg h4, Nat.add_sub_cancel_left]

theorem scan_encodeChar (c : Char) (rest : Bytes) :
    scan (encodeChar c ++ rest) = some c :: scan rest := by
  have hvalid := toNat_bounds c
  -- one to four bytes, by the size of the number
  simp only [encodeChar]
  split
  case isTrue h1 =>
    have hb := toNat_byte (n := c.toNat) (by omega)
    have hlead : lead? (UInt8.ofNat c.toNat).toNat = some ⟨c.toNat, 0, 0, 0⟩ := by
      simp only [hb, lead?, h1, if_true]
    exact scan_sequence hlead rfl
  case isFalse h1 =>
    split
    case isTrue h2 =>
      have hlead := lead?_two h1 h2
      rw [← toNat_byte (n := 0xC0 + c.toNat / 64) (by omega)] at hlead
      refine scan_sequence hlead ?_
      refine (follow_tail _).trans ?_
      rw [follow]
      congr 2
      omega
    case isFalse h2 =>
      split
      case isTrue h3 =>
        have hlead := lead?_three h3
        rw [← toNat_byte (n := 0xE0 + c.toNat / 4096) (by omega)] at hlead
        refine scan_sequence hlead ?_
        -- behind ED the second byte is in its bounds since no character is a surrogate
        refine (follow_cons _ ?_ ?_).trans ?_
        · rw [toNat_tail]; split <;> omega
        · rw [toNat_tail]; split <;> omega
        · refine (follow_tail _).trans ?_
          rw [toNat_tail, follow]
          congr 2
          omega
      case isFalse h3 =>
        have hlead := lead?_four (n := c.toNat) (by omega)
        rw [← toNat_byte (n := 0xF0 + c.toNat / 262144) (by omega)] at hlead
        refine scan_sequence hlead ?_
        refine (follow_cons _ ?_ ?_).trans ?_
        · rw [toNat_tail]; split <;> omega
        · rw [toNat_tail]; split <;> omega
        · refine (follow_tail _).trans ?_
          refine (follow_tail _).trans ?_
          rw [toNat_tail, follow]
          congr 2
          omega

theorem scan_encode (s : List Char) : scan (encode s) = s.map some := by
  induction s with
  | nil => simp [encode, scan]
  | cons c s ih =>
      have hcons : encode (c :: s) = encodeChar c ++ encode s := rfl
      rw [hcons, scan_encodeChar, ih, List.map_cons]

theorem mapM_id_map_some {α : Type} (s : List α) : (s.map some).mapM id = some s := by
  induction s with
  | nil => rfl
  | cons a s ih => simp [ih]

theorem decode?_encode (s : List Char) : decode? (encode s) = some s := by
  rw [decode?, scan_encode, mapM_id_map_some]

theorem encode_append (s t : List Char) : encode (s ++ t) = encode s ++ encode t :=
  List.flatMap_append ..

theorem encodeChar_of_lt {c : Char} (h : c.toNat < 0x80) :
    encodeChar c = [UInt8.ofNat c.toNat] := by
  simp only [encodeChar, h, if_true]

/-- Behind ASCII, all bytes of a character are above ASCII. -/
theorem le_of_mem_encodeChar {c : Char} (h : 0x80 ≤ c.toNat) {b : UInt8} (hb : b ∈ encodeChar c) :
    0x80 ≤ b.toNat := by
  have hvalid := toNat_bounds c
  simp only [encodeChar] at hb
  rw [if_neg (by omega)] at hb
  split at hb
  · simp only [List.mem_cons, List.not_mem_nil, or_false] at hb
    rcases hb with rfl | rfl
    · rw [toNat_byte (by omega)]; omega
    · rw [toNat_tail]; omega
  · split at hb
    · simp only [List.mem_cons, List.not_mem_nil, or_false] at hb
      rcases hb with rfl | rfl | rfl
      · rw [toNat_byte (by omega)]; omega
      · rw [toNat_tail]; omega
      · rw [toNat_tail]; omega
    · simp only [List.mem_cons, List.not_mem_nil, or_false] at hb
      rcases hb with rfl | rfl | rfl | rfl
      · rw [toNat_byte (by omega)]; omega
      · rw [toNat_tail]; omega
      · rw [toNat_tail]; omega
      · rw [toNat_tail]; omega

theorem encode_injective {s t : List Char} (h : encode s = encode t) : s = t :=
  Option.some.inj (by rw [← decode?_encode s, h, decode?_encode])

end StatAlmanac.Text.Utf8
