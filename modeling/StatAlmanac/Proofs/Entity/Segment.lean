import StatAlmanac.Api.Request
import StatAlmanac.Proofs.Entity.Spelling
import StatAlmanac.Proofs.Text.Folded
import StatAlmanac.Proofs.Text.Utf8

/-!
Segments of names. A character of a name is passed on, escaped, or, if it is a
space, written as an underscore; so reading the escapes of a segment gives the
name with underscores for its spaces, and no two other names share a segment.
-/

namespace StatAlmanac.Name

open Text

variable {c : Char} {s t : List Char}

theorem hexByte?_twoDigits {digit : Nat → Char}
    (hdigit : ∀ n < 16, Api.hexValue? (digit n) = some n)
    (b : UInt8) : Api.hexByte? (digit (b.toNat / 16 % 16)) (digit (b.toNat % 16)) = some b := by
  have hvalue : 16 * (b.toNat / 16 % 16) + b.toNat % 16 = b.toNat := by
    have hb := b.toNat_lt
    omega
  rw [Api.hexByte?, hdigit _ (Nat.mod_lt _ (by decide)), hdigit _ (Nat.mod_lt _ (by decide))]
  show some (UInt8.ofNat (16 * (b.toNat / 16 % 16) + b.toNat % 16)) = some b
  rw [hvalue, UInt8.ofNat_toNat]

theorem toNat_lt_of_isEscaped (h : isEscaped c) : c.toNat < 0x80 := by
  have hreserved : ∀ c ∈ reserved, c.toNat < 0x80 := by decide
  simp only [isEscaped, isControl, Bool.or_eq_true, List.contains_iff_mem, decide_eq_true_eq,
    beq_iff_eq] at h
  rcases h with h | h | h
  · exact hreserved c h
  · omega
  · omega

inductive Segmented (c : Char) : List Char → Prop
  | space : c = ' ' → Segmented c ['_']
  | escaped : c ≠ ' ' → isEscaped c →
    Segmented c ['%', upperDigit (c.toNat / 16 % 16), upperDigit (c.toNat % 16)]
  | passed : c ≠ ' ' → isEscaped c = false → Segmented c [c]

theorem segmented (c : Char) : Segmented c (segmentChar c) := by
  rw [segmentChar]
  by_cases hspace : c = ' '
  · rw [if_pos hspace]
    exact .space hspace
  · rw [if_neg hspace]
    by_cases hescaped : isEscaped c
    · rw [if_pos hescaped]
      exact .escaped hspace hescaped
    · rw [if_neg hescaped]
      exact .passed hspace (Bool.eq_false_iff.2 hescaped)

/-! ### Reading a segment -/

def underscored (s : List Char) : List Char := s.map fun c => if c = ' ' then '_' else c

theorem unescape_cons (h : c ≠ '%') (rest : List Char) :
    Api.unescape (c :: rest) = Utf8.encodeChar c ++ Api.unescape rest := by
  rw [Api.unescape, Api.unescapeFrom]
  · rfl
  · rintro a b tail rfl -
    exact h rfl

theorem unescape_escape (b : UInt8) (rest : List Char) :
    Api.unescape ('%' :: upperDigit (b.toNat / 16 % 16) :: upperDigit (b.toNat % 16) :: rest) =
      b :: Api.unescape rest := by
  have hdigit : ∀ n < 16, Api.hexValue? (upperDigit n) = some n := by decide
  have hbyte := hexByte?_twoDigits hdigit b
  rw [Api.unescape, Api.unescapeFrom]
  simp only [hbyte]
  rfl

theorem unescape_segmentChar (c : Char) (rest : List Char) :
    Api.unescape (segmentChar c ++ rest) =
      Utf8.encodeChar (if c = ' ' then '_' else c) ++ Api.unescape rest := by
  have hcases := segmented c
  generalize segmentChar c = written at hcases
  cases hcases with
  | space hspace =>
      rw [if_pos hspace]
      exact unescape_cons (by decide) rest
  | escaped hspace hescaped =>
      have hlt := toNat_lt_of_isEscaped hescaped
      have hbyte := unescape_escape (UInt8.ofNat c.toNat) rest
      rw [Utf8.toNat_byte (by omega)] at hbyte
      rw [if_neg hspace, Utf8.encodeChar_of_lt hlt]
      exact hbyte
  | passed hspace hescaped =>
      rw [if_neg hspace]
      refine unescape_cons ?_ rest
      rintro rfl
      cases hescaped

theorem unescape_flatMap (s : List Char) :
    Api.unescape (s.flatMap segmentChar) = Utf8.encode (underscored s) := by
  induction s with
  | nil => rfl
  | cons c s ih =>
      rw [List.flatMap_cons, unescape_segmentChar, ih]
      rfl

theorem unescape_segment (s : List Char) :
    Api.unescape (segment s) = Utf8.encode (underscored (normalize s)) :=
  unescape_flatMap (normalize s)

theorem flatMap_underscored (s : List Char) :
    (underscored s).flatMap segmentChar = s.flatMap segmentChar := by
  rw [underscored, List.flatMap_map]
  refine congrArg (s.flatMap ·) (funext fun c => ?_)
  by_cases hspace : c = ' '
  · subst hspace
    rfl
  · rw [if_neg hspace]

/-- A segment is the same for just those names that are spelled alike but for spaces and
underscores, and its escapes stand for the name with underscores for the spaces. -/
theorem segment_identifies (s : List Char) :
    (∀ t, segment s = segment t ↔ underscored (normalize s) = underscored (normalize t)) ∧
    Api.decodeSegment? (segment s) = some (String.ofList (underscored (normalize s))) := by
  refine ⟨fun t => ⟨fun h => ?_, fun h => ?_⟩, ?_⟩
  · have hbytes := congrArg Api.unescape h
    rw [unescape_segment, unescape_segment] at hbytes
    exact Utf8.encode_injective hbytes
  · rw [segment, segment, ← flatMap_underscored, h, flatMap_underscored]
  · rw [Api.decodeSegment?, unescape_segment, Utf8.decode?_encode, Option.map_some]

/-! ### The form of a segment -/

def isUpperHex (c : Char) : Bool := '0' ≤ c && c ≤ '9' || 'A' ≤ c && c ≤ 'F'

/-- Characters that end a segment or the path. -/
def marks : List Char := ['/', '\\', '?', '#']

/-- The character ends nothing, and is neither blank nor a control character. -/
def isInert (c : Char) : Bool := !marks.contains c && !isBlank c && !isControl c

/-- A text that stays one segment wherever it stands in an address: nothing in it ends the segment,
and percent signs only start escapes. -/
structure IsSegment (s : List Char) : Prop where
  inert : ∀ c ∈ s, isInert c
  escapes : ∀ rest, '%' :: rest <:+ s →
    ∃ a b tail, rest = a :: b :: tail ∧ isUpperHex a ∧ isUpperHex b

namespace IsSegment

theorem nil : IsSegment [] where
  inert _ hc := absurd hc List.not_mem_nil
  escapes _ h := absurd (List.suffix_nil.1 h) (List.cons_ne_nil _ _)

theorem cons (hc : isInert c) (hpercent : c ≠ '%') (hs : IsSegment s) : IsSegment (c :: s) where
  inert := List.forall_mem_cons.2 ⟨hc, hs.inert⟩
  escapes rest h := by
    rcases List.suffix_cons_iff.1 h with heq | hsuffix
    · exact absurd (List.cons.inj heq).1.symm hpercent
    · exact hs.escapes rest hsuffix

theorem escape {a b : Char} (ha : isUpperHex a) (hb : isUpperHex b) (hs : IsSegment (a :: b :: s)) :
    IsSegment ('%' :: a :: b :: s) where
  inert := List.forall_mem_cons.2 ⟨by decide, hs.inert⟩
  escapes rest h := by
    rcases List.suffix_cons_iff.1 h with heq | hsuffix
    · exact ⟨a, b, s, (List.cons.inj heq).2, ha, hb⟩
    · exact hs.escapes rest hsuffix

end IsSegment

theorem isInert_of_not_isEscaped (hescaped : isEscaped c = false) (hblank : isBlank c = false) :
    isInert c := by
  have hmarks : ∀ m ∈ marks, m ∈ reserved := by decide
  simp only [isEscaped, Bool.or_eq_false_iff, List.contains_eq_mem,
    decide_eq_false_iff_not] at hescaped
  simp [isInert, hblank, hescaped.2, mt (hmarks c) hescaped.1]

theorem isSegment_cons (hc : c = ' ' ∨ isBlank c = false) (hs : IsSegment s) :
    IsSegment (segmentChar c ++ s) := by
  have hcases := segmented c
  generalize segmentChar c = written at hcases
  cases hcases with
  | space => exact hs.cons (by decide) (by decide)
  | escaped =>
      have hdigit : ∀ n < 16, isUpperHex (upperDigit n) ∧ isInert (upperDigit n) ∧
          upperDigit n ≠ '%' := by
        decide
      obtain ⟨hhigh, hinert, hne⟩ := hdigit (c.toNat / 16 % 16) (Nat.mod_lt _ (by decide))
      obtain ⟨hlow, hinert', hne'⟩ := hdigit (c.toNat % 16) (Nat.mod_lt _ (by decide))
      exact .escape hhigh hlow ((hs.cons hinert' hne').cons hinert hne)
  | passed hspace hescaped =>
      refine hs.cons (isInert_of_not_isEscaped hescaped (hc.resolve_left hspace)) ?_
      rintro rfl
      cases hescaped

theorem isSegment_segment (s : List Char) : IsSegment (segment s) := by
  have hchars : ∀ c ∈ normalize s, c = ' ' ∨ isBlank c = false :=
    fun c => eq_space_or_of_mem_normalize
  rw [segment]
  generalize normalize s = spelled at hchars
  induction spelled with
  | nil => exact .nil
  | cons c spelled ih =>
      obtain ⟨hc, hspelled⟩ := List.forall_mem_cons.1 hchars
      rw [List.flatMap_cons]
      exact isSegment_cons hc (ih hspelled)

end StatAlmanac.Name
