import Mathlib.Data.List.Basic
import StatAlmanac.Text.Blank
import StatAlmanac.Text.Case
import StatAlmanac.Text.Fold
import StatAlmanac.Text.Letter

/-!
The case of the letters A to Z. Whatever takes no notice of it in a character takes
none in a text: of the classes of characters and their comparison that is checked for
the 26 capitals, and the rest follows along the text.
-/

namespace StatAlmanac.Text

variable {α : Type} {f : Char → α} {p : Char → Bool} {s t : List Char}

/-- A function that gives the same for a capital from A to Z and for its small letter. -/
def IsCaseless (f : Char → α) : Prop := ∀ c, f c.toLower = f c

theorem toLower_of_not_capital {c : Char} (h : ¬(0x41 ≤ c.toNat ∧ c.toNat ≤ 0x5A)) :
    c.toLower = c :=
  dif_neg h

theorem isCaseless_of_capitals
    (h : ∀ n ∈ List.range' 0x41 26, f (Char.ofNat n).toLower = f (Char.ofNat n)) :
    IsCaseless f := by
  intro c
  by_cases hc : 0x41 ≤ c.toNat ∧ c.toNat ≤ 0x5A
  · have hcapital := h c.toNat (List.mem_range'_1.2 (by omega))
    rwa [Char.ofNat_toNat] at hcapital
  · rw [toLower_of_not_capital hc]

theorem isCaseless_toLower : IsCaseless Char.toLower := isCaseless_of_capitals (by decide)

theorem isCaseless_isBlank : IsCaseless isBlank := isCaseless_of_capitals (by decide)

theorem isCaseless_isLetter : IsCaseless isLetter := isCaseless_of_capitals (by decide)

theorem isCaseless_isWordChar : IsCaseless isWordChar := isCaseless_of_capitals (by decide)

theorem isCaseless_isCased : IsCaseless isCased := isCaseless_of_capitals (by decide)

theorem isCaseless_isCaseIgnorable : IsCaseless isCaseIgnorable :=
  isCaseless_of_capitals (by decide)

theorem isCaseless_fold : IsCaseless fold := isCaseless_of_capitals (by decide)

theorem sameLetter_toLower (a c : Char) : sameLetter a c.toLower = sameLetter a c := by
  rw [sameLetter, sameLetter, isCaseless_fold c]

theorem isCaseless_lower : IsCaseless lower := isCaseless_of_capitals (by decide)

theorem isCaseless_upper : IsCaseless fun c => lowerAscii (upper c) :=
  isCaseless_of_capitals (by decide)

theorem isCaseless_beq {m : Char} (hm : m.isAlpha = false) : IsCaseless (· == m) := by
  have hletters : ∀ n ∈ List.range' 0x41 26,
      (Char.ofNat n).isAlpha ∧ (Char.ofNat n).toLower.isAlpha := by decide
  have hother {c : Char} (hc : c.isAlpha) : (c == m) = false := by
    rw [beq_eq_false_iff_ne]
    rintro rfl
    rw [hc] at hm
    cases hm
  refine isCaseless_of_capitals fun n hn => ?_
  obtain ⟨hcapital, hsmall⟩ := hletters n hn
  exact (hother hsmall).trans (hother hcapital).symm

theorem toLower_eq_iff {c m : Char} (hm : m.isAlpha = false) : c.toLower = m ↔ c = m := by
  have hsame : (c.toLower == m) = (c == m) := isCaseless_beq hm c
  rw [← beq_iff_eq, hsame, beq_iff_eq]

/-! ### Texts -/

theorem lowerAscii_cons (c : Char) (s : List Char) :
    lowerAscii (c :: s) = c.toLower :: lowerAscii s := rfl

theorem lowerAscii_append (s t : List Char) : lowerAscii (s ++ t) = lowerAscii s ++ lowerAscii t :=
  List.map_append

theorem lowerAscii_lowerAscii (s : List Char) : lowerAscii (lowerAscii s) = lowerAscii s := by
  rw [lowerAscii, lowerAscii, List.map_map]
  exact List.map_congr_left fun c _ => isCaseless_toLower c

theorem lowerAscii_unwords (ws : List (List Char)) :
    lowerAscii (unwords ws) = unwords (ws.map lowerAscii) := by
  induction ws with
  | nil => rfl
  | cons w ws ih =>
      cases ws with
      | nil => simp [unwords]
      | cons v ws =>
          rw [unwords, List.intercalate_cons_cons, lowerAscii_append, lowerAscii_append,
            List.map_cons, List.map_cons, unwords, List.intercalate_cons_cons]
          exact congrArg _ ih

theorem map_lowerAscii (h : IsCaseless f) (s : List Char) : (lowerAscii s).map f = s.map f := by
  rw [lowerAscii, List.map_map]
  exact List.map_congr_left fun c _ => h c

theorem dropWhile_lowerAscii (h : IsCaseless p) (s : List Char) :
    (lowerAscii s).dropWhile p = lowerAscii (s.dropWhile p) := by
  have hp : p ∘ Char.toLower = p := funext h
  rw [lowerAscii, List.dropWhile_map, hp, lowerAscii]

theorem trimStart_lowerAscii (s : List Char) :
    trimStart (lowerAscii s) = lowerAscii (trimStart s) :=
  dropWhile_lowerAscii isCaseless_isBlank s

theorem trim_lowerAscii (s : List Char) : trim (lowerAscii s) = lowerAscii (trim s) := by
  have hreverse (s : List Char) : (lowerAscii s).reverse = lowerAscii s.reverse :=
    List.map_reverse.symm
  rw [trim, trim, trimStart_lowerAscii, trimEnd, trimEnd, hreverse,
    dropWhile_lowerAscii isCaseless_isBlank, hreverse]

theorem facesCased_lowerAscii (s : List Char) : facesCased (lowerAscii s) = facesCased s := by
  rw [facesCased, facesCased, dropWhile_lowerAscii isCaseless_isCaseIgnorable]
  cases s.dropWhile isCaseIgnorable with
  | nil => rfl
  | cons c s => exact isCaseless_isCased c

/-- Whether a sigma ends a word does not depend on the case of the letters around it. -/
theorem lowerFrom_lowerAscii (before s : List Char) :
    lowerFrom (lowerAscii before) (lowerAscii s) = lowerFrom before s := by
  induction s generalizing before with
  | nil => rfl
  | cons c s ih =>
      have hsigma : c.toLower = 'Σ' ↔ c = 'Σ' := toLower_eq_iff (by decide)
      have hrest : lowerFrom (c.toLower :: lowerAscii before) (lowerAscii s) =
          lowerFrom (c :: before) s :=
        ih (c :: before)
      rw [lowerAscii_cons, lowerFrom, lowerFrom, hrest, facesCased_lowerAscii,
        facesCased_lowerAscii, isCaseless_lower c]
      simp only [hsigma]

theorem lowerText_lowerAscii (s : List Char) : lowerText (lowerAscii s) = lowerText s :=
  lowerFrom_lowerAscii [] s

end StatAlmanac.Text
