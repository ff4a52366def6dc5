import StatAlmanac.Text.Blank
import StatAlmanac.Text.Fold

/-!
Which characters are told apart even when case is ignored. Blanks and digits
have no case, so a letter is never like one of them.
-/

namespace StatAlmanac.Text

/-- What holds of all characters of a text is decided over the text, not over all characters there
are. -/
instance decidableForallMem (p : Char → Prop) [DecidablePred p] (s : List Char) :
    Decidable (∀ c ∈ s, p c) :=
  s.decidableBAll p

def Ranges.members (r : Ranges) : List Nat := r.flatMap fun i => List.range' i.1 (i.2 + 1 - i.1)

theorem Ranges.mem_members {r : Ranges} {n : Nat} (h : r.has n) : n ∈ r.members := by
  induction r with
  | nil => cases h
  | cons i r ih =>
      obtain ⟨first, last⟩ := i
      rw [has] at h
      split at h
      · cases h
      · rename_i hfirst
        rw [Bool.or_eq_true] at h
        refine List.mem_append.2 (h.imp ?_ ih)
        intro hlast
        have hle : n ≤ last := of_decide_eq_true hlast
        rw [List.mem_range'_1]
        omega

theorem fold_blankRanges : ∀ n ∈ blankRanges.members, fold (Char.ofNat n) = Char.ofNat n := by
  decide +kernel

theorem fold_of_isBlank {c : Char} (h : isBlank c) : fold c = c := by
  have hfold := fold_blankRanges c.toNat (Ranges.mem_members h)
  rwa [Char.ofNat_toNat] at hfold

theorem not_isBlank_of_sameLetter {a c : Char} (ha : isBlank (fold a) = false)
    (h : sameLetter a c) : isBlank c = false := by
  apply Bool.eq_false_iff.2
  intro hc
  have hfold : fold a = fold c := eq_of_beq h
  rw [fold_of_isBlank hc] at hfold
  rw [hfold, hc] at ha
  cases ha

theorem not_sameLetter_of_isBlank {a c : Char} (ha : isBlank (fold a) = false) (hc : isBlank c) :
    sameLetter a c = false := by
  apply Bool.eq_false_iff.2
  intro h
  rw [not_isBlank_of_sameLetter ha h] at hc
  cases hc

theorem sameLetter_eq_false {a b c : Char} (hab : sameLetter a b = false) (h : sameLetter a c) :
    sameLetter b c = false := by
  apply Bool.eq_false_iff.2
  intro hbc
  have hac : fold a = fold c := eq_of_beq h
  have hb : fold b = fold c := eq_of_beq hbc
  rw [sameLetter, hac, hb, beq_self_eq_true] at hab
  cases hab

end StatAlmanac.Text
