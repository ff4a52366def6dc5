import StatAlmanac.Proofs.Entity.Spelling
import StatAlmanac.Proofs.Text.Capitals
import StatAlmanac.Proofs.Text.LowerAscii

/-!
The usual spelling is a canonical form. Spelled again, a name stays as it is, since
the first letter of each word is a capital by then; so a name and its spelling have
the same key and the same segment. Keys take no notice of the case of the letters A to
Z either, nor of how words are set apart.
-/

namespace StatAlmanac

namespace Name

open Text

variable {s w : List Char}

theorem capitalize_capitalize (w : List Char) : capitalize (capitalize w) = capitalize w := by
  induction w with
  | nil => rfl
  | cons c w ih =>
      rw [capitalize]
      by_cases hletter : isLetter c
      · obtain ⟨d, ds, hupper, hd⟩ := exists_upper hletter
        rw [if_pos hletter, hupper, List.cons_append, capitalize, if_pos hd.1, hd.2]
        rfl
      · rw [if_neg hletter, capitalize, if_neg hletter, ih]

theorem words_normalize (s : List Char) : words (normalize s) = (words s).map capitalize :=
  words_unwords fun _ => isWord_of_mem_capitalized

theorem normalize_normalize (s : List Char) : normalize (normalize s) = normalize s := by
  have hagain : capitalize ∘ capitalize = capitalize := funext capitalize_capitalize
  rw [normalize, words_normalize, List.map_map, hagain, normalize]

theorem isSingleSpaced_normalize (s : List Char) : IsSingleSpaced (normalize s) := by
  cases hblank : isAllBlank s with
  | true =>
      rw [normalize_eq_nil_of_isAllBlank hblank]
      exact isSingleSpaced_of_solid fun c hc => absurd hc List.not_mem_nil
  | false => exact (isTidy_normalize hblank).isSingleSpaced

/-- The usual spelling of a name is spelled like the name. It has no blanks but single spaces
between its words, and the name and its spelling share their keys and their segment. -/
theorem normalize_canonical (s : List Char) :
    normalize (normalize s) = normalize s ∧ IsSingleSpaced (normalize s) ∧
      (∀ k, key k (normalize s) = key k s) ∧ segment (normalize s) = segment s := by
  have hagain := normalize_normalize s
  refine ⟨hagain, isSingleSpaced_normalize s, fun k => ?_, ?_⟩
  · rw [key, key, slug, slug, hagain]
  · rw [segment, segment, hagain]

/-! ### Case and spacing -/

theorem lowerAscii_capitalize (w : List Char) :
    lowerAscii (capitalize (lowerAscii w)) = lowerAscii (capitalize w) := by
  induction w with
  | nil => rfl
  | cons c w ih =>
      rw [lowerAscii_cons, capitalize, capitalize, isCaseless_isLetter c]
      by_cases hletter : isLetter c
      · have hupper : lowerAscii (upper c.toLower) = lowerAscii (upper c) := isCaseless_upper c
        rw [if_pos hletter, if_pos hletter, lowerAscii_append, lowerAscii_append,
          lowerAscii_lowerAscii, hupper]
      · rw [if_neg hletter, if_neg hletter]
        exact congrArg₂ List.cons (isCaseless_toLower c) ih

theorem lowerAscii_normalize (s : List Char) :
    lowerAscii (normalize s) =
      unwords (((words s).map lowerAscii).map fun w => lowerAscii (capitalize w)) := by
  rw [normalize, lowerAscii_unwords, List.map_map, List.map_map]
  exact congrArg unwords (List.map_congr_left fun w _ => (lowerAscii_capitalize w).symm)

/-- Names with the same words, the case of the letters A to Z aside, have the same keys. -/
theorem key_eq_of_words {s t : List Char} (h : (words s).map lowerAscii = (words t).map lowerAscii)
    (k : Kind) : key k s = key k t := by
  have hnormalize : lowerAscii (normalize s) = lowerAscii (normalize t) := by
    rw [lowerAscii_normalize, lowerAscii_normalize, h]
  have hlower : lowerText (normalize s) = lowerText (normalize t) := by
    rw [← lowerText_lowerAscii, hnormalize, lowerText_lowerAscii]
  rw [key, key, slug, slug, hlower]

theorem key_eq_of_words_elan :
    (words "  éLAN\tde ΣΙΣ".toList).map lowerAscii = (words "élan DE  ΣΙΣ ".toList).map lowerAscii ∧
      key .item "  éLAN\tde ΣΙΣ".toList = key .item "élan DE  ΣΙΣ ".toList :=
  ⟨by decide, key_eq_of_words (by decide) .item⟩

end Name

end StatAlmanac
