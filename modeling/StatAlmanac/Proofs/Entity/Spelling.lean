import StatAlmanac.Entity.Name
import StatAlmanac.Proofs.Text.Upper
import StatAlmanac.Proofs.Text.Words

/-!
The usual spelling of a name. It is made of words set apart by single spaces, as
many as the name has; and a word without letters is spelled as it is.
-/

namespace StatAlmanac.Name

open Text

variable {s t w : List Char}

/-- A capital is no blank either. -/
theorem isWord_capitalize (h : IsWord w) : IsWord (capitalize w) := by
  induction w with
  | nil => exact absurd rfl h.ne_nil
  | cons c w ih =>
      obtain ⟨hc, hw⟩ := List.forall_mem_cons.1 h.solid
      rw [capitalize]
      split
      · rename_i hletter
        obtain ⟨hupper, hraised⟩ := isRaised_upper hletter hc
        refine ⟨List.append_ne_nil_of_left_ne_nil hupper w, fun d hd => ?_⟩
        exact (List.mem_append.1 hd).elim (fun hd => (hraised d hd).1) (hw d)
      · refine .cons hc ?_
        cases w with
        | nil => exact fun d hd => absurd hd List.not_mem_nil
        | cons d w => exact (ih ⟨List.cons_ne_nil d w, hw⟩).solid

theorem capitalize_of_lt (h : ∀ c ∈ w, c < 'A') : capitalize w = w := by
  induction w with
  | nil => rfl
  | cons c w ih =>
      obtain ⟨hc, hw⟩ := List.forall_mem_cons.1 h
      have hletter : ¬isLetter c := fun hletter => Nat.not_lt.2 (le_of_isLetter hletter) hc
      rw [capitalize, if_neg hletter, ih hw]

theorem eq_of_capitalize (hsolid : ∀ c ∈ w, isBlank c = false) (h : ∀ c ∈ capitalize w, c < 'A') :
    capitalize w = w := by
  induction w with
  | nil => rfl
  | cons c w ih =>
      obtain ⟨hc, hw⟩ := List.forall_mem_cons.1 hsolid
      by_cases hletter : isLetter c
      · obtain ⟨hupper, hraised⟩ := isRaised_upper hletter hc
        obtain ⟨d, ds, hds⟩ := List.exists_cons_of_ne_nil hupper
        have hd : d ∈ upper c := hds ▸ List.mem_cons_self
        rw [capitalize, if_pos hletter] at h
        exact absurd (h d (List.mem_append_left w hd)) (Nat.not_lt.2 (hraised d hd).2)
      · rw [capitalize, if_neg hletter] at h ⊢
        rw [ih hw (List.forall_mem_cons.1 h).2]

/-! ### Names -/

theorem normalize_eq_nil_of_isAllBlank (h : isAllBlank s) : normalize s = [] := by
  rw [normalize, words_eq_nil_iff.2 h]
  rfl

theorem isWord_of_mem_capitalized (h : w ∈ (words s).map capitalize) : IsWord w := by
  obtain ⟨v, hv, rfl⟩ := List.mem_map.1 h
  exact isWord_capitalize (isWord_of_mem_words hv)

theorem isTidy_normalize (h : isAllBlank s = false) : IsTidy (normalize s) := by
  refine isTidy_unwords (fun hnil => ?_) fun w => isWord_of_mem_capitalized
  rw [words_eq_nil_iff.1 (List.map_eq_nil_iff.1 hnil)] at h
  cases h

theorem normalize_eq_nil_iff : normalize s = [] ↔ isAllBlank s := by
  refine ⟨fun h => ?_, normalize_eq_nil_of_isAllBlank⟩
  cases hblank : isAllBlank s with
  | true => rfl
  | false => exact absurd h (isTidy_normalize hblank).ne_nil

theorem eq_space_or_of_mem_normalize {c : Char} (h : c ∈ normalize s) :
    c = ' ' ∨ isBlank c = false := by
  cases hblank : isAllBlank s with
  | true =>
      rw [normalize_eq_nil_of_isAllBlank hblank] at h
      cases h
  | false => exact (isTidy_normalize hblank).eq_space_or h

/-- A single word without letters is the spelling of just those names that have it as their only
word. -/
theorem normalize_eq_word_iff (hne : t ≠ []) (ht : ∀ c ∈ t, isBlank c = false ∧ c < 'A') :
    normalize s = t ↔ words s = [t] := by
  constructor
  · intro h
    have hsolid : ∀ w ∈ words s, ∀ c ∈ w, isBlank c = false := fun w hw =>
      (isWord_of_mem_words hw).solid
    rw [normalize] at h
    cases hwords : words s with
    | nil =>
        rw [hwords] at h
        exact absurd h.symm hne
    | cons w ws =>
        cases ws with
        | nil =>
            rw [hwords, List.map_singleton, unwords, List.intercalate_singleton] at h
            have hw : ∀ c ∈ w, isBlank c = false := hsolid w (hwords ▸ List.mem_cons_self)
            rw [← h, eq_of_capitalize hw (h ▸ fun c hc => (ht c hc).2)]
        | cons v ws =>
            -- the space between the words is in no single word
            have hspace : ' ' ∈ t := by
              rw [← h, hwords, List.map_cons, List.map_cons, unwords, List.intercalate_cons_cons]
              simp
            exact absurd (ht ' ' hspace).1 (by decide)
  · intro h
    rw [normalize, h, List.map_singleton, capitalize_of_lt fun c hc => (ht c hc).2, unwords,
      List.intercalate_singleton]

end StatAlmanac.Name
