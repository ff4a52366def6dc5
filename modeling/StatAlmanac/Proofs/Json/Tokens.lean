import StatAlmanac.Json.Tree
import StatAlmanac.Json.Write
import StatAlmanac.Proofs.Text.Utf8

/-!
Written JSON values, token by token. What stands between quotes is read back as
the text that was written, a natural number as itself, and the blanks of the
layout give no token.
-/

namespace StatAlmanac.Json

open Text

/-- The characters that the bytes of a text stand for, one each. -/
def spell (s : List Char) : List Char := (Utf8.encode s).map fun b => Char.ofNat b.toNat

theorem tokens_encode (s : List Char) : tokens (Utf8.encode s) = tokensOf (spell s) := rfl

@[simp] theorem spell_append (s t : List Char) : spell (s ++ t) = spell s ++ spell t := by
  rw [spell, Utf8.encode_append, List.map_append, spell, spell]

theorem spell_cons (c : Char) (s : List Char) : spell (c :: s) = spell [c] ++ spell s :=
  spell_append [c] s

theorem spell_one {c : Char} (h : c.toNat < 0x80) : spell [c] = [c] := by
  have hbyte : (UInt8.ofNat c.toNat).toNat = c.toNat := Utf8.toNat_byte (by omega)
  rw [spell, Utf8.encode, List.flatMap_singleton, Utf8.encodeChar_of_lt h, List.map_singleton,
    hbyte, Char.ofNat_toNat]

theorem spell_of_ascii {s : List Char} (h : ∀ c ∈ s, c.toNat < 0x80) : spell s = s := by
  induction s with
  | nil => rfl
  | cons c s ih =>
      rw [spell_cons, spell_one (h c (by simp)), ih fun d hd => h d (by simp [hd])]
      rfl

theorem spell_of_all {s : List Char} (h : s.all fun c => c.toNat < 0x80) : spell s = s :=
  spell_of_ascii fun c hc => of_decide_eq_true (List.all_eq_true.1 h c hc)

/-! ### Texts -/

theorem scanString_plain {c : Char} (rest : List Char) (hquote : c ≠ '"') (hback : c ≠ '\\')
    (hc : 0x20 ≤ c.toNat) :
    scanString (c :: rest) =
      (scanString rest).map fun r => (.byte (byteOf c) :: r.1, r.2) := by
  rw [scanString.eq_def]
  split
  · simp_all
  · simp_all
  · simp_all
  · simp_all
  · rename_i heq
    cases heq
    rw [if_neg (by omega)]
    cases scanString rest <;> rfl

theorem scanString_escaped {e c : Char} (rest : List Char) (hu : e ≠ 'u')
    (he : escaped? e = some c) :
    scanString ('\\' :: e :: rest) =
      (scanString rest).map fun r => (.byte (byteOf c) :: r.1, r.2) := by
  rw [scanString.eq_def]
  split
  · simp_all
  · simp_all
  · simp_all
  · rename_i heq
    cases heq
    rw [he]
    cases scanString rest <;> rfl
  · rename_i hnone heq
    cases heq
    exact absurd rfl (hnone e rest rfl)

theorem scanString_unit {a b c d : Char} {n : Nat} (rest : List Char)
    (hn : unit? a b c d = some n) :
    scanString ('\\' :: 'u' :: a :: b :: c :: d :: rest) =
      (scanString rest).map fun r => (.unit n :: r.1, r.2) := by
  rw [scanString, hn]
  cases scanString rest <;> rfl

/-- The pieces stand for a text, whatever comes behind them. -/
def Spells (ps : List Piece) (s : List Char) : Prop :=
  ∀ more, bytes? (ps ++ more) = (bytes? more).map (Utf8.encode s ++ ·)

theorem spells_nil : Spells [] [] := by
  intro more
  cases h : bytes? more <;> simp [h, Utf8.encode]

theorem Spells.append {ps qs : List Piece} {s t : List Char} (hp : Spells ps s) (hq : Spells qs t) :
    Spells (ps ++ qs) (s ++ t) := by
  intro more
  rw [List.append_assoc, hp, hq, Option.map_map]
  congr 1
  funext bs
  simp only [Function.comp_apply, Utf8.encode_append, List.append_assoc]

theorem Spells.string? {ps : List Piece} {s : List Char} (h : Spells ps s) :
    string? ps = some (String.ofList s) := by
  have hbytes : bytes? ps = some (Utf8.encode s) := by
    have := h []
    simpa [bytes?] using this
  rw [Json.string?, hbytes]
  simp only [Option.bind_eq_bind, Option.bind_some, Utf8.decode?_encode]
  rfl

theorem spells_bytes (bs : Bytes) {s : List Char} (h : Utf8.encode s = bs) :
    Spells (bs.map .byte) s := by
  subst h
  intro more
  induction Utf8.encode s with
  | nil => cases h : bytes? more <;> simp [h]
  | cons b bs ih =>
      rw [List.map_cons, List.cons_append, bytes?, ih, Option.map_map]
      rfl

theorem spells_unit {c : Char} (h : c.toNat < 0x20) : Spells [.unit c.toNat] [c] := by
  intro more
  have hlow : isLowSurrogate c.toNat = false := by
    simp only [isLowSurrogate, Bool.and_eq_false_iff, decide_eq_false_iff_not]
    omega
  have hhigh : isHighSurrogate c.toNat = false := by
    simp only [isHighSurrogate, Bool.and_eq_false_iff, decide_eq_false_iff_not]
    omega
  rw [List.singleton_append, bytes?.eq_def]
  simp only [hlow, hhigh, Char.ofNat_toNat, Utf8.encode, List.flatMap_singleton]
  rfl

/-- Reading `s` in front of any text gives pieces for `t` and goes on behind. -/
def Reads (s t : List Char) : Prop :=
  ∃ ps, Spells ps t ∧
    ∀ rest, scanString (s ++ rest) = (scanString rest).map fun r => (ps ++ r.1, r.2)

theorem reads_nil : Reads [] [] := by
  refine ⟨[], spells_nil, fun rest => ?_⟩
  cases h : scanString rest <;> simp [h]

theorem Reads.append {s s' t t' : List Char} (h : Reads s t) (h' : Reads s' t') :
    Reads (s ++ s') (t ++ t') := by
  obtain ⟨ps, hps, hread⟩ := h
  obtain ⟨qs, hqs, hread'⟩ := h'
  refine ⟨ps ++ qs, hps.append hqs, fun rest => ?_⟩
  rw [List.append_assoc, hread, hread', Option.map_map]
  congr 1
  funext r
  simp only [Function.comp_apply, List.append_assoc]

def charOf (b : UInt8) : Char := Char.ofNat b.toNat

theorem toNat_charOf (b : UInt8) : (charOf b).toNat = b.toNat := by
  have hb := UInt8.toNat_lt b
  have hvalid : b.toNat.isValidChar := Or.inl (by omega)
  rw [charOf, Char.ofNat, dif_pos hvalid]
  rfl

theorem byteOf_charOf (b : UInt8) : byteOf (charOf b) = b := by
  rw [byteOf, toNat_charOf]
  exact UInt8.ofNat_toNat

theorem scanString_bytes {bs : Bytes} (rest : List Char)
    (h : ∀ b ∈ bs, charOf b ≠ '"' ∧ charOf b ≠ '\\' ∧ 0x20 ≤ (charOf b).toNat) :
    scanString (bs.map charOf ++ rest) =
      (scanString rest).map fun r => (bs.map .byte ++ r.1, r.2) := by
  induction bs with
  | nil => cases h : scanString rest <;> simp [h]
  | cons b bs ih =>
      obtain ⟨hquote, hback, hlow⟩ := h b (by simp)
      rw [List.map_cons, List.cons_append, scanString_plain _ hquote hback hlow, byteOf_charOf,
        ih fun d hd => h d (by simp [hd]), Option.map_map]
      rfl

theorem reads_plain {c : Char} (hquote : c ≠ '"') (hback : c ≠ '\\') (hc : 0x20 ≤ c.toNat) :
    Reads (spell [c]) [c] := by
  have hone : Utf8.encode [c] = Utf8.encodeChar c := List.flatMap_singleton ..
  refine ⟨(Utf8.encodeChar c).map .byte, spells_bytes _ hone, fun rest => ?_⟩
  rw [spell, hone]
  refine scanString_bytes rest fun b hb => ?_
  by_cases hlow : c.toNat < 0x80
  · rw [Utf8.encodeChar_of_lt hlow, List.mem_singleton] at hb
    have hchar : charOf b = c := by
      rw [hb, charOf, Utf8.toNat_byte (by omega), Char.ofNat_toNat]
    rw [hchar]
    exact ⟨hquote, hback, hc⟩
  · -- quote and backslash are in ASCII, and no byte of this character is
    have hb' := Utf8.le_of_mem_encodeChar (by omega) hb
    have hnum : 0x80 ≤ (charOf b).toNat := by rwa [toNat_charOf]
    refine ⟨?_, ?_, by omega⟩
    · intro heq
      rw [heq] at hnum
      exact absurd hnum (by decide)
    · intro heq
      rw [heq] at hnum
      exact absurd hnum (by decide)

theorem reads_escaped {e c : Char} (hu : e ≠ 'u') (he : escaped? e = some c)
    (hc : c.toNat < 0x80) : Reads ['\\', e] [c] := by
  refine ⟨[.byte (byteOf c)], ?_, fun rest => scanString_escaped rest hu he⟩
  refine spells_bytes [byteOf c] ?_
  rw [Utf8.encode, List.flatMap_singleton, Utf8.encodeChar_of_lt hc]
  rfl

theorem hexValue?_hexDigit {n : Nat} (h : n < 16) : hexValue? (hexDigit n) = some n := by
  have hall : ∀ m < 16, hexValue? (hexDigit m) = some m := by decide
  exact hall n h

theorem reads_control {c : Char} (hc : c.toNat < 0x20) :
    Reads ['\\', 'u', '0', '0', hexDigit (c.toNat / 16), hexDigit (c.toNat % 16)] [c] := by
  have hunit : unit? '0' '0' (hexDigit (c.toNat / 16)) (hexDigit (c.toNat % 16)) =
      some c.toNat := by
    have hzero : hexValue? '0' = some 0 := by decide
    simp only [unit?, hzero, hexValue?_hexDigit (show c.toNat / 16 < 16 by omega),
      hexValue?_hexDigit (show c.toNat % 16 < 16 by omega), Option.bind_eq_bind, Option.bind_some]
    refine congrArg some ?_
    omega
  exact ⟨[.unit c.toNat], spells_unit hc, fun rest => scanString_unit rest hunit⟩

theorem reads_escapeChar (c : Char) : Reads (spell (escapeChar c)) [c] := by
  have hescaped {e : Char} (h : e ≠ 'u' ∧ escaped? e = some c ∧ c.toNat < 0x80 ∧ e.toNat < 0x80) :
      Reads (spell ['\\', e]) [c] := by
    obtain ⟨hu, he, hc, hlow⟩ := h
    rw [spell_of_ascii (by simp [hlow])]
    exact reads_escaped hu he hc
  unfold escapeChar
  split
  · exact hescaped (by decide)
  · exact hescaped (by decide)
  · exact hescaped (by decide)
  · exact hescaped (by decide)
  · exact hescaped (by decide)
  · exact hescaped (by decide)
  · exact hescaped (by decide)
  · rename_i hquote hback _ _ _ _ _
    split
    · rename_i hc
      rw [spell_of_ascii]
      · exact reads_control hc
      · have hdigit : ∀ n < 16, (hexDigit n).toNat < 0x80 := by decide
        have h1 := hdigit (c.toNat / 16) (by omega)
        have h2 := hdigit (c.toNat % 16) (by omega)
        simp [h1, h2]
    · rename_i hc
      exact reads_plain hquote hback (by omega)

theorem reads_escaped_text (s : List Char) : Reads (spell (s.flatMap escapeChar)) s := by
  induction s with
  | nil => exact reads_nil
  | cons c s ih =>
      rw [List.flatMap_cons, spell_append]
      exact (reads_escapeChar c).append ih

/-! ### The list of tokens -/

theorem tokensOf_nil : tokensOf [] = [] := by rw [tokensOf]

theorem tokensOf_space {c : Char} (rest : List Char) (h : isSpace c) :
    tokensOf (c :: rest) = tokensOf rest := by
  rw [tokensOf, if_pos h]

theorem tokensOf_cons {c : Char} {rest after : List Char} {t : Token} (hspace : ¬isSpace c)
    (h : scanToken c rest = some (t, after)) : tokensOf (c :: rest) = t :: tokensOf after := by
  rw [tokensOf, if_neg hspace]
  split
  · rename_i r hr
    cases h.symm.trans hr
    rfl
  · rename_i hnone
    cases h.symm.trans hnone

theorem tokensOf_writeText (s : String) (rest : List Char) :
    tokensOf (spell (writeText s) ++ rest) = .text (some s) :: tokensOf rest := by
  -- what was written has no quote of its own, so the text goes up to the quote behind it
  obtain ⟨ps, hspells, hread⟩ := reads_escaped_text s.toList
  have hscan : scanString (spell (s.toList.flatMap escapeChar) ++ '"' :: rest) =
      some (ps, rest) := by
    rw [hread, scanString, Option.map_some, List.append_nil]
  have hquote : spell ['"'] = ['"'] := spell_one (by decide)
  rw [writeText, List.cons_append, spell_cons, spell_append, hquote]
  simp only [List.cons_append, List.nil_append, List.append_assoc]
  refine tokensOf_cons (by decide) ?_
  simp only [scanToken, hscan, Option.map_some, hspells.string?, String.ofList_toList]

/-! ### Numbers -/

/-- What may stand behind a number: nothing that would be part of it. -/
def EndsNumber (rest : List Char) : Prop :=
  ∀ c ∈ rest.head?, ¬isDigit c ∧ c ≠ '.' ∧ c ≠ 'e' ∧ c ≠ 'E'

theorem isDigit_of_mem_toDigits {n : Nat} {c : Char} (h : c ∈ Nat.toDigits 10 n) : isDigit c := by
  have hdigit := Nat.isDigit_of_mem_toDigits (by decide) (by decide) h
  simp only [Char.isDigit, Bool.and_eq_true, decide_eq_true_eq, ge_iff_le] at hdigit
  simp only [isDigit, Bool.and_eq_true, decide_eq_true_eq]
  exact hdigit

theorem scanDigits_append {ds rest : List Char} (hds : ∀ c ∈ ds, isDigit c)
    (hrest : ∀ c ∈ rest.head?, ¬isDigit c) : scanDigits (ds ++ rest) = (ds, rest) := by
  have hstop : rest.takeWhile isDigit = [] ∧ rest.dropWhile isDigit = rest := by
    cases rest with
    | nil => exact ⟨rfl, rfl⟩
    | cons c rest =>
        have hc := hrest c (by simp)
        simp [hc]
  rw [scanDigits, List.takeWhile_append_of_pos hds, List.dropWhile_append_of_pos hds, hstop.1,
    hstop.2, List.append_nil]

theorem toDigits_eq_cons {n : Nat} (h : 0 < n) :
    ∃ d ds, Nat.toDigits 10 n = d :: ds ∧ d ≠ '0' := by
  induction n using Nat.strongRecOn with
  | ind n ih =>
      by_cases hn : n < 10
      · have hall : ∀ m < 10, 0 < m → m.digitChar ≠ '0' := by decide
        exact ⟨n.digitChar, [], Nat.toDigits_of_lt_base hn, hall n hn h⟩
      · obtain ⟨d, ds, hds, hd⟩ := ih (n / 10) (by omega) (by omega)
        refine ⟨d, ds ++ [(n % 10).digitChar], ?_, hd⟩
        rw [Nat.toDigits_of_base_le (by decide) (by omega), hds, List.cons_append]

theorem isWhole_toDigits (n : Nat) : isWhole (Nat.toDigits 10 n) := by
  by_cases h : 0 < n
  · obtain ⟨d, ds, hds, hd⟩ := toDigits_eq_cons h
    simp [hds, isWhole, hd]
  · obtain rfl : n = 0 := by omega
    decide

theorem digitsValue_toDigits (n : Nat) : digitsValue (Nat.toDigits 10 n) = n :=
  Nat.ofDigitChars_ten_toDigits

namespace Numeral

def fractionText (n : Numeral) : List Char := n.fraction.elim [] ('.' :: ·)

/-- The part behind the exponent sign, with that sign and always with a sign of its own. -/
def exponentText (n : Numeral) : List Char :=
  n.exponent.elim [] fun e => 'e' :: (if e.1 then '-' else '+') :: e.2

def text (n : Numeral) : List Char :=
  (if n.isNegative then ['-'] else []) ++ (n.whole ++ (n.fractionText ++ n.exponentText))

/-- All parts that are there have digits, and there is no zero in front. -/
structure IsSpelled (n : Numeral) : Prop where
  isWhole : isWhole n.whole
  whole : ∀ c ∈ n.whole, isDigit c
  fraction : ∀ ds ∈ n.fraction, ds ≠ [] ∧ ∀ c ∈ ds, isDigit c
  exponent : ∀ e ∈ n.exponent, e.2 ≠ [] ∧ ∀ c ∈ e.2, isDigit c

end Numeral

section Numerals

variable {n : Numeral} {rest : List Char}

theorem head_exponentText (hrest : EndsNumber rest) :
    ∀ c ∈ (n.exponentText ++ rest).head?, ¬isDigit c ∧ c ≠ '.' := by
  intro c hc
  rw [Numeral.exponentText] at hc
  cases he : n.exponent with
  | none =>
      rw [he] at hc
      exact ⟨(hrest c hc).1, (hrest c hc).2.1⟩
  | some e =>
      rw [he] at hc
      obtain rfl : 'e' = c := by simpa using hc
      decide

theorem head_fractionText (hrest : EndsNumber rest) :
    ∀ c ∈ (n.fractionText ++ (n.exponentText ++ rest)).head?, ¬isDigit c := by
  intro c hc
  rw [Numeral.fractionText] at hc
  cases hf : n.fraction with
  | none =>
      rw [hf] at hc
      exact (head_exponentText hrest c hc).1
  | some ds =>
      rw [hf] at hc
      obtain rfl : '.' = c := by simpa using hc
      decide

theorem scanFraction_text (h : n.IsSpelled) (hrest : EndsNumber rest) :
    scanFraction (n.fractionText ++ (n.exponentText ++ rest)) =
      some (n.fraction, n.exponentText ++ rest) := by
  have hhead := head_exponentText (n := n) hrest
  rw [Numeral.fractionText]
  cases hf : n.fraction with
  | none =>
      show scanFraction (n.exponentText ++ rest) = _
      unfold scanFraction
      split
      · rename_i heq
        rw [heq] at hhead
        exact absurd rfl (hhead '.' (by simp)).2
      · rfl
  | some ds =>
      obtain ⟨hne, hds⟩ := h.fraction ds hf
      show scanFraction ('.' :: (ds ++ (n.exponentText ++ rest))) = _
      rw [scanFraction, scanDigits_append hds fun c hc => (hhead c hc).1]
      cases ds with
      | nil => exact absurd rfl hne
      | cons d ds => rfl

theorem scanExponent_text (h : n.IsSpelled) (hrest : EndsNumber rest) :
    scanExponent (n.exponentText ++ rest) = some (n.exponent, rest) := by
  rw [Numeral.exponentText]
  cases he : n.exponent with
  | none =>
      show scanExponent rest = _
      unfold scanExponent
      split
      · rfl
      · rename_i c t
        obtain ⟨-, -, he, hE⟩ := hrest c (by simp)
        rw [if_neg (by simp [he, hE])]
  | some e =>
      obtain ⟨hne, hds⟩ := h.exponent e he
      obtain ⟨sign, ds⟩ := e
      have hsign : scanSign ((if sign then '-' else '+') :: (ds ++ rest)) = (sign, ds ++ rest) := by
        cases sign <;> rfl
      show scanExponent ('e' :: (if sign then '-' else '+') :: (ds ++ rest)) = _
      rw [scanExponent, if_pos (.inl rfl), hsign, scanDigits_append hds fun c hc => (hrest c hc).1]
      cases ds with
      | nil => exact absurd rfl hne
      | cons d ds => rfl

theorem scanNumeral_text (h : n.IsSpelled) (hrest : EndsNumber rest) :
    scanNumeral n.isNegative (n.whole ++ (n.fractionText ++ (n.exponentText ++ rest))) =
      some (n, rest) := by
  rw [scanNumeral, scanWhole, scanDigits_append h.whole (head_fractionText hrest), if_pos h.isWhole]
  simp only [Option.bind_eq_bind, Option.bind_some, scanFraction_text h hrest,
    scanExponent_text h hrest]
  rfl

theorem scanToken_digit {c : Char} (rest : List Char) (hc : isDigit c) :
    scanToken c rest =
      (scanNumeral false (c :: rest)).map fun r => (.number r.1.number?, r.2) := by
  unfold scanToken
  split
  case h_12 => rfl
  all_goals exact absurd hc (by decide)

theorem not_isSpace_of_isDigit {c : Char} (hc : isDigit c) : ¬isSpace c := by
  intro hspace
  simp only [isSpace, Bool.or_eq_true, beq_iff_eq] at hspace
  rcases hspace with ((rfl | rfl) | rfl) | rfl <;> exact absurd hc (by decide)

theorem tokensOf_numeral (h : n.IsSpelled) (hrest : EndsNumber rest) :
    tokensOf (n.text ++ rest) = .number n.number? :: tokensOf rest := by
  have hscan := scanNumeral_text h hrest
  simp only [Numeral.text, List.append_assoc]
  cases hsign : n.isNegative with
  | true =>
      rw [hsign] at hscan
      refine tokensOf_cons (c := '-') (by decide) ?_
      show (scanNumeral true (n.whole ++ (n.fractionText ++ (n.exponentText ++ rest)))).map _ = _
      rw [hscan, Option.map_some]
  | false =>
      rw [hsign] at hscan
      have hwhole := h.whole
      cases hw : n.whole with
      | nil => exact absurd h.isWhole (by simp [hw, isWhole])
      | cons c ds =>
          rw [hw] at hscan hwhole
          have hc : isDigit c := hwhole c (by simp)
          refine tokensOf_cons (not_isSpace_of_isDigit hc) ?_
          rw [scanToken_digit _ hc]
          show (scanNumeral false (c :: ds ++
              (n.fractionText ++ (n.exponentText ++ rest)))).map _ = _
          rw [hscan, Option.map_some]

end Numerals

theorem natural_isSpelled (n : Nat) :
    (⟨false, Nat.toDigits 10 n, none, none⟩ : Numeral).IsSpelled :=
  ⟨isWhole_toDigits n, fun _ => isDigit_of_mem_toDigits, by simp, by simp⟩

theorem number?_toDigits {n : Nat} (hn : n < bound64) :
    (⟨false, Nat.toDigits 10 n, none, none⟩ : Numeral).number? = some (.natural n) := by
  have hle : n ≤ maxSignificand := Nat.le_sub_one_of_lt hn
  simp [Numeral.number?, digitsValue_toDigits, hle]

theorem tokensOf_natural {n : Nat} (hn : n < bound64) {rest : List Char}
    (hrest : EndsNumber rest) :
    tokensOf (Nat.toDigits 10 n ++ rest) = .number (some (.natural n)) :: tokensOf rest := by
  have h := tokensOf_numeral (natural_isSpelled n) hrest
  rw [number?_toDigits hn] at h
  simpa [Numeral.text, Numeral.fractionText, Numeral.exponentText] using h

end StatAlmanac.Json
