import Mathlib.Data.List.Chain
import Mathlib.Data.List.TakeWhile
import StatAlmanac.Text.Blank

/-!
The words of a text, and texts that are tidy: words set apart by single spaces,
with no blank besides. What the words of a text are put together to is tidy, and
a tidy text is put together again from its words.
-/

namespace StatAlmanac.Text

variable {s t : List Char} {c : Char}

theorem words_cons_of_isBlank (h : isBlank c) (s : List Char) : words (c :: s) = words s := by
  rw [words.eq_def]
  exact if_pos h

theorem words_cons_blank {d : Char} (hc : isBlank c = false) (hd : isBlank d) (s : List Char) :
    words (c :: d :: s) = [c] :: words s := by
  rw [words.eq_def]
  simp only [hc, hd, Bool.false_eq_true, if_false, if_true, words_cons_of_isBlank hd]

theorem words_cons_word {d : Char} {w : List Char} {ws : List (List Char)} (hc : isBlank c = false)
    (hd : isBlank d = false) (h : words (d :: s) = w :: ws) :
    words (c :: d :: s) = (c :: w) :: ws := by
  rw [words.eq_def]
  simp only [hc, hd, Bool.false_eq_true, if_false, h]

theorem trim_eq_nil_iff : trim s = [] ↔ isAllBlank s := by
  rw [trim, trimEnd, List.reverse_eq_nil_iff, List.dropWhile_eq_nil_iff, isAllBlank,
    List.all_eq_true]
  constructor
  · intro h c hc
    rw [← List.takeWhile_append_dropWhile (p := isBlank) (l := s)] at hc
    rcases List.mem_append.1 hc with hstart | hrest
    · exact List.mem_takeWhile_imp hstart
    · exact h c (List.mem_reverse.2 hrest)
  · intro h c hc
    exact h c ((List.dropWhile_sublist _).mem (List.mem_reverse.1 hc))

structure IsWord (w : List Char) : Prop where
  ne_nil : w ≠ []
  solid : ∀ c ∈ w, isBlank c = false

theorem IsWord.cons {w : List Char} (hc : isBlank c = false) (hw : ∀ d ∈ w, isBlank d = false) :
    IsWord (c :: w) :=
  ⟨List.cons_ne_nil c w, List.forall_mem_cons.2 ⟨hc, hw⟩⟩

theorem words_of_solid {w : List Char} (hw : w ≠ []) (hsolid : ∀ c ∈ w, isBlank c = false) :
    words w = [w] := by
  induction w with
  | nil => exact absurd rfl hw
  | cons c w ih =>
      have hc : isBlank c = false := hsolid c List.mem_cons_self
      cases w with
      | nil =>
          rw [words.eq_def]
          simp only [hc, Bool.false_eq_true, if_false]
      | cons d w =>
          have hmore := ih (List.cons_ne_nil d w) fun c hc => hsolid c (List.mem_cons_of_mem _ hc)
          exact words_cons_word hc (hsolid d (by simp)) hmore

theorem words_append {w : List Char} (hw : w ≠ []) (hsolid : ∀ c ∈ w, isBlank c = false)
    (s : List Char) : words (w ++ ' ' :: s) = w :: words s := by
  induction w with
  | nil => exact absurd rfl hw
  | cons c w ih =>
      have hc : isBlank c = false := hsolid c List.mem_cons_self
      cases w with
      | nil => exact words_cons_blank hc (by decide) s
      | cons d w =>
          have hmore := ih (List.cons_ne_nil d w) fun c hc => hsolid c (List.mem_cons_of_mem _ hc)
          exact words_cons_word hc (hsolid d (by simp)) hmore

/-- Words set apart by single spaces. -/
inductive IsTidy : List Char → Prop
  | word {w : List Char} : w ≠ [] → (∀ c ∈ w, isBlank c = false) → IsTidy w
  | space {w s : List Char} : w ≠ [] → (∀ c ∈ w, isBlank c = false) → IsTidy s →
    IsTidy (w ++ ' ' :: s)

theorem IsTidy.append (hs : IsTidy s) (ht : IsTidy t) : IsTidy (s ++ ' ' :: t) := by
  induction hs with
  | word hne hsolid => exact .space hne hsolid ht
  | space hne hsolid _ ih =>
      rw [List.append_assoc, List.cons_append]
      exact .space hne hsolid ih

theorem IsTidy.ne_nil (h : IsTidy s) : s ≠ [] := by
  cases h with
  | word hne => exact hne
  | space hne => exact List.append_ne_nil_of_left_ne_nil hne _

theorem IsTidy.unwords_words (h : IsTidy s) : unwords (words s) = s ∧ words s ≠ [] := by
  induction h with
  | word hne hsolid =>
      rw [words_of_solid hne hsolid, unwords, List.intercalate_singleton]
      exact ⟨rfl, List.cons_ne_nil _ _⟩
  | @space w s hne hsolid _ ih =>
      obtain ⟨v, ws, hwords⟩ := List.exists_cons_of_ne_nil ih.2
      rw [hwords] at ih
      rw [words_append hne hsolid, hwords, unwords, List.intercalate_cons_cons, List.append_assoc]
      exact ⟨congrArg (w ++ ' ' :: ·) ih.1, List.cons_ne_nil _ _⟩

theorem IsTidy.squeeze_eq (h : IsTidy s) : squeeze s = s := h.unwords_words.1

/-! ### Words of any text -/

/-- A character that is not blank starts the first word, alone or in front of the first word behind
it. -/
theorem words_cons_of_not_isBlank (hc : isBlank c = false) (s : List Char) :
    ∃ w ws, words (c :: s) = (c :: w) :: ws ∧ (words s = w :: ws ∨ w = [] ∧ words s = ws) := by
  induction s generalizing c with
  | nil =>
      exact ⟨[], [], words_of_solid (List.cons_ne_nil c []) (by simpa using hc), .inr ⟨rfl, rfl⟩⟩
  | cons d s ih =>
      by_cases hd : isBlank d
      · exact ⟨[], words s, words_cons_blank hc hd s, .inr ⟨rfl, words_cons_of_isBlank hd s⟩⟩
      · obtain ⟨w, ws, hwords, -⟩ := ih (Bool.eq_false_iff.2 hd)
        exact ⟨d :: w, ws, words_cons_word hc (Bool.eq_false_iff.2 hd) hwords, .inl hwords⟩

theorem isWord_of_mem_words {w : List Char} (h : w ∈ words s) : IsWord w := by
  induction s generalizing w with
  | nil => cases h
  | cons c s ih =>
      by_cases hc : isBlank c
      · rw [words_cons_of_isBlank hc] at h
        exact ih h
      · obtain ⟨v, ws, hwords, hrest⟩ := words_cons_of_not_isBlank (Bool.eq_false_iff.2 hc) s
        rw [hwords] at h
        rcases List.mem_cons.1 h with rfl | hmem
        · refine .cons (Bool.eq_false_iff.2 hc) ?_
          rcases hrest with hrest | ⟨rfl, -⟩
          · exact (ih (hrest ▸ List.mem_cons_self)).solid
          · exact fun d hd => absurd hd List.not_mem_nil
        · rcases hrest with hrest | ⟨-, hrest⟩
          · exact ih (hrest ▸ List.mem_cons_of_mem v hmem)
          · exact ih (hrest ▸ hmem)

theorem words_eq_nil_iff : words s = [] ↔ isAllBlank s := by
  induction s with
  | nil => exact ⟨fun _ => rfl, fun _ => rfl⟩
  | cons c s ih =>
      by_cases hc : isBlank c
      · rw [words_cons_of_isBlank hc, ih, isAllBlank, isAllBlank, List.all_cons, hc, Bool.true_and]
      · obtain ⟨w, ws, hwords, -⟩ := words_cons_of_not_isBlank (Bool.eq_false_iff.2 hc) s
        simp [hwords, isAllBlank, hc]

theorem words_unwords {ws : List (List Char)} (h : ∀ w ∈ ws, IsWord w) :
    words (unwords ws) = ws := by
  induction ws with
  | nil => rfl
  | cons w ws ih =>
      obtain ⟨hw, hws⟩ := List.forall_mem_cons.1 h
      cases ws with
      | nil => rw [unwords, List.intercalate_singleton, words_of_solid hw.ne_nil hw.solid]
      | cons v ws =>
          rw [unwords, List.intercalate_cons_cons, List.append_assoc]
          exact (words_append hw.ne_nil hw.solid _).trans (congrArg (w :: ·) (ih hws))

theorem isTidy_unwords {ws : List (List Char)} (hne : ws ≠ [])
    (h : ∀ w ∈ ws, IsWord w) : IsTidy (unwords ws) := by
  induction ws with
  | nil => exact absurd rfl hne
  | cons w ws ih =>
      obtain ⟨hw, hws⟩ := List.forall_mem_cons.1 h
      cases ws with
      | nil =>
          rw [unwords, List.intercalate_singleton]
          exact .word hw.ne_nil hw.solid
      | cons v ws =>
          have htidy := ih (List.cons_ne_nil v ws) hws
          rw [unwords, List.intercalate_cons_cons, List.append_assoc]
          exact .space hw.ne_nil hw.solid htidy

theorem IsTidy.eq_space_or (h : IsTidy s) (hc : c ∈ s) : c = ' ' ∨ isBlank c = false := by
  induction h with
  | word _ hsolid => exact .inr (hsolid c hc)
  | space _ hsolid _ ih =>
      rcases List.mem_append.1 hc with hword | hrest
      · exact .inr (hsolid c hword)
      · rcases List.mem_cons.1 hrest with rfl | hrest
        · exact .inl rfl
        · exact ih hrest

/-- The only blanks are spaces, and each stands alone between two other characters. -/
structure IsSingleSpaced (s : List Char) : Prop where
  space : ∀ c ∈ s, isBlank c → c = ' '
  first : ∀ c ∈ s.head?, isBlank c = false
  last : ∀ c ∈ s.getLast?, isBlank c = false
  apart : s.IsChain fun a b => isBlank a → isBlank b = false

theorem isSingleSpaced_of_solid (h : ∀ c ∈ s, isBlank c = false) : IsSingleSpaced s where
  space c hc hblank := absurd hblank (by simp [h c hc])
  first c hc := h c (List.mem_of_head? hc)
  last c hc := h c (List.mem_of_getLast? hc)
  apart := List.Pairwise.isChain
    (List.pairwise_of_forall_mem_list fun _ _ b hb (_ : isBlank _) => h b hb)

theorem IsTidy.isSingleSpaced (h : IsTidy s) : IsSingleSpaced s := by
  induction h with
  | word _ hsolid => exact isSingleSpaced_of_solid hsolid
  | @space w s hne hsolid hs ih =>
      have hw := isSingleSpaced_of_solid hsolid
      have hfirst : (w ++ ' ' :: s).head? = w.head? := List.head?_append_of_ne_nil w hne
      have hlast : (w ++ ' ' :: s).getLast? = s.getLast? := by
        rw [List.getLast?_append_of_ne_nil _ (List.cons_ne_nil _ _),
          List.getLast?_cons_of_ne_nil hs.ne_nil]
      refine ⟨fun c hc hblank => ?_, hfirst ▸ hw.first, hlast ▸ ih.last, ?_⟩
      · rcases List.mem_append.1 hc with hc | hc
        · exact hw.space c hc hblank
        · exact (List.mem_cons.1 hc).elim id fun hc => ih.space c hc hblank
      · refine List.isChain_append.2
          ⟨hw.apart, List.isChain_cons.2 ⟨fun c hc _ => ih.first c hc, ih.apart⟩, ?_⟩
        intro a ha _ _ hblank
        rw [hw.last a ha] at hblank
        cases hblank

end StatAlmanac.Text
