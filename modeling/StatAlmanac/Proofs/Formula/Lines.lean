import Mathlib.Data.List.Nodup
import Mathlib.Tactic.MkIffOfInductiveProp
import StatAlmanac.Proofs.Formula.Label
import StatAlmanac.Proofs.Text.Folded

/-!
The search for a name goes line by line. A name without a line end lies within
one line, so the occurrences in a text are those in its first line and those in
the rest. A stretch of text that clashes with the name at every place holds no
occurrence, whatever follows.
-/

namespace StatAlmanac.Label

open Text

variable {name line more s t : List Char} {before : Option Char}

/-! ### A line and the rest of the text -/

/-- A name that lies within one line. -/
@[mk_iff]
structure IsInline (name : List Char) : Prop where
  ne_nil : name ≠ []
  newline : ∀ a ∈ name, sameLetter a '\n' = false

instance (name : List Char) : Decidable (IsInline name) := decidable_of_iff' _ (isInline_iff name)

theorem isEdge_newline (last : Option Char) : isEdge last (some '\n') = isEdge last none := rfl

theorem readName?_line (h : ∀ a ∈ name, sameLetter a '\n' = false) (before : Option Char)
    (line more : List Char) :
    readName? before name (line ++ '\n' :: more) =
      (readName? before name line).map fun found => (found.1, found.2 ++ '\n' :: more) := by
  induction name generalizing before line with
  | nil => rfl
  | cons a name ih =>
      cases line with
      | nil =>
          show (if sameLetter a '\n' then _ else none) = none
          rw [h a List.mem_cons_self, if_neg Bool.false_ne_true]
      | cons c line =>
          rw [List.cons_append, readName?, readName?]
          by_cases hc : sameLetter a c
          · rw [if_pos hc, if_pos hc, ih fun a ha => h a (List.mem_cons_of_mem _ ha)]
          · rw [if_neg hc, if_neg hc]
            rfl

theorem behind?_of_readName?_eq_none (h : readName? before name s = none) :
    behind? name before s = none := by
  by_cases hstart : isEdge before s.head?
  · rw [behind?_of_isEdge hstart, h]
    rfl
  · rw [behind?, Bool.eq_false_iff.2 hstart]
    rfl

theorem behind?_line (h : IsInline name) (before : Option Char) (line more : List Char) :
    behind? name before (line ++ '\n' :: more) =
      (behind? name before line).map (· ++ '\n' :: more) := by
  cases line with
  | nil =>
      obtain ⟨a, rest, rfl⟩ := List.exists_cons_of_ne_nil h.ne_nil
      have hread := readName?_line h.newline before [] more
      rw [behind?_of_readName?_eq_none hread, behind?_of_readName?_eq_none rfl]
      rfl
  | cons c line =>
      by_cases hstart : isEdge before (some c)
      · rw [behind?_of_isEdge (s := c :: line) hstart,
          behind?_of_isEdge (s := c :: line ++ '\n' :: more) hstart, readName?_line h.newline]
        cases readName? before name (c :: line) with
        | none => rfl
        | some found =>
            obtain ⟨last, rest⟩ := found
            -- an end of the line and an end of the text end a word alike
            have hend : isEdge last (rest ++ '\n' :: more).head? = isEdge last rest.head? := by
              cases rest with
              | nil => exact isEdge_newline last
              | cons => rfl
            rw [Option.map_some, Option.bind_some, Option.bind_some, hend]
            split <;> rfl
      · have hnone (s : List Char) : behind? name before (c :: s) = none := by
          rw [behind?, List.head?_cons, Bool.eq_false_iff.2 hstart]
          rfl
        rw [List.cons_append, hnone, hnone]
        rfl

theorem length_of_behind? (h : behind? name before s = some t) :
    s.length = name.length + t.length := by
  obtain ⟨word, rfl, hword, -⟩ := behind?_eq_some.1 h
  rw [List.length_append, length_eq_of_fold hword]

theorem occurrencesFrom_line (h : IsInline name) {skip : Nat} (hskip : skip ≤ line.length) :
    occurrencesFrom name before skip (line ++ '\n' :: more) =
      (occurrencesFrom name before skip line).map (· ++ '\n' :: more) ++
        occurrencesFrom name (some '\n') 0 more := by
  induction line generalizing before skip with
  | nil =>
      obtain rfl : skip = 0 := Nat.le_zero.1 hskip
      have hnone : behind? name before ('\n' :: more) = none := by
        have hbehind := behind?_line h before [] more
        obtain ⟨a, rest, rfl⟩ := List.exists_cons_of_ne_nil h.ne_nil
        rw [behind?_of_readName?_eq_none (s := []) rfl] at hbehind
        exact hbehind
      have hskipped : occurrencesFrom name before 0 ('\n' :: more) =
          occurrencesFrom name (some '\n') 0 more := by
        rw [occurrencesFrom, hnone]
      exact hskipped
  | cons c line ih =>
      cases skip with
      | succ skip =>
          rw [List.cons_append, occurrencesFrom, occurrencesFrom]
          exact ih (Nat.le_of_succ_le_succ hskip)
      | zero =>
          have hbehind := behind?_line h before (c :: line) more
          rw [List.cons_append] at hbehind ⊢
          rw [occurrencesFrom, occurrencesFrom, hbehind]
          cases hfound : behind? name before (c :: line) with
          | none => exact ih (Nat.zero_le _)
          | some rest =>
              have hlength := length_of_behind? hfound
              rw [List.length_cons] at hlength
              exact congrArg ((rest ++ '\n' :: more) :: ·) (ih (by omega))

/-- Only whether a word goes on counts of what was before. -/
theorem occurrencesFrom_congr (hname : name ≠ []) (before other : Option Char)
    (h : before.any isWordChar = other.any isWordChar) :
    occurrencesFrom name before 0 s = occurrencesFrom name other 0 s := by
  cases s with
  | nil => rfl
  | cons c s =>
      obtain ⟨a, name, rfl⟩ := List.exists_cons_of_ne_nil hname
      have hbehind : behind? (a :: name) before (c :: s) = behind? (a :: name) other (c :: s) := by
        rw [behind?, behind?, isEdge, isEdge, h]
        rfl
      rw [occurrencesFrom, occurrencesFrom, hbehind]

/-- The occurrences in a text are those in its first line and those in the rest. -/
theorem occurrences_line (h : IsInline name) (line more : List Char) :
    occurrences name (line ++ '\n' :: more) =
      (occurrences name line).map (· ++ '\n' :: more) ++ occurrences name more := by
  rw [occurrences, occurrencesFrom_line h (Nat.zero_le _),
    occurrencesFrom_congr h.ne_nil (some '\n') none rfl]
  rfl

/-! ### Passing over text -/

/-- The name goes another way than the text before the text ends. -/
def clashes : (name s : List Char) → Bool
  | a :: name, c :: s => !sameLetter a c || clashes name s
  | _, _ => false

def passes (name : List Char) : List Char → Bool
  | [] => true
  | c :: s => clashes name (c :: s) && passes name s

theorem readName?_of_clashes (h : clashes name s) : readName? before name s = none := by
  induction name generalizing before s with
  | nil => cases h
  | cons a name ih =>
      cases s with
      | nil => rfl
      | cons c s =>
          rw [readName?]
          by_cases hc : sameLetter a c
          · rw [clashes, hc] at h
            rw [if_pos hc, ih h]
          · rw [if_neg hc]

theorem dropName?_of_clashes (h : clashes name s) : dropName? name s = none := by
  induction name generalizing s with
  | nil => cases h
  | cons a name ih =>
      cases s with
      | nil => rfl
      | cons c s =>
          rw [dropName?]
          by_cases hc : sameLetter a c
          · rw [clashes, hc] at h
            rw [if_pos hc, ih h]
          · rw [if_neg hc]

theorem clashes_append (h : clashes name s) (t : List Char) : clashes name (s ++ t) := by
  induction name generalizing s with
  | nil => cases h
  | cons a name ih =>
      cases s with
      | nil => cases h
      | cons c s =>
          rw [clashes, Bool.or_eq_true] at h
          rw [List.cons_append, clashes, Bool.or_eq_true]
          exact h.imp_right ih

theorem passes_append (hs : passes name s) (ht : passes name t) : passes name (s ++ t) := by
  induction s with
  | nil => exact ht
  | cons c s ih =>
      rw [passes, Bool.and_eq_true] at hs
      rw [List.cons_append, passes, Bool.and_eq_true]
      exact ⟨clashes_append hs.1 t, ih hs.2⟩

theorem passes_of_letter {a : Char} (name : List Char) (h : ∀ c ∈ s, sameLetter a c = false) :
    passes (a :: name) s := by
  induction s with
  | nil => rfl
  | cons c s ih =>
      rw [passes, clashes, h c List.mem_cons_self]
      exact ih fun c hc => h c (List.mem_cons_of_mem _ hc)

theorem occurrences_of_passes (h : passes name s) : occurrences name s = [] := by
  rw [occurrences]
  generalize (none : Option Char) = before
  induction s generalizing before with
  | nil => rfl
  | cons c s ih =>
      rw [passes, Bool.and_eq_true] at h
      rw [occurrencesFrom, behind?_of_readName?_eq_none (readName?_of_clashes h.1)]
      exact ih h.2 _

/-! ### The order of the text -/

variable {found kept : List (List Char)} {text : List Char}

def IsPlaced (placed : List (Nat × List Char)) : Prop :=
  placed.Pairwise (·.1 > ·.1) ∧ ∀ e ∈ placed, e.1 = e.2.length

theorem isPlaced_placeByLength {placed : List (Nat × List Char)} (f : List Char)
    (h : IsPlaced placed) : IsPlaced (placeByLength f.length f placed) := by
  obtain ⟨hsorted, hlength⟩ := h
  refine ⟨?_, fun e he => ?_⟩
  · induction placed with
    | nil => exact List.pairwise_singleton _ _
    | cons g rest ih =>
        obtain ⟨hg, hrest⟩ := List.pairwise_cons.1 hsorted
        rw [placeByLength]
        split
        · rename_i hlt
          refine List.pairwise_cons.2 ⟨fun e he => ?_, hsorted⟩
          rcases List.mem_cons.1 he with rfl | he
          · exact hlt
          · exact Nat.lt_trans (hg e he) hlt
        · split
          · exact hsorted
          · refine List.pairwise_cons.2 ⟨fun e he => ?_,
              ih hrest fun e he => hlength e (List.mem_cons_of_mem _ he)⟩
            rcases mem_placeByLength he with rfl | he
            · show f.length < g.1
              omega
            · exact hg e he
  · rcases mem_placeByLength he with rfl | he
    · rfl
    · exact hlength e he

theorem isPlaced_placeAll {placed : List (Nat × List Char)} (h : IsPlaced placed)
    (found : List (List Char)) : IsPlaced (placeAll placed found) := by
  induction found generalizing placed with
  | nil => exact h
  | cons f found ih => exact ih (isPlaced_placeByLength f h)

theorem pairwise_inTextOrder (found : List (List Char)) :
    (inTextOrder found).Pairwise (·.length > ·.length) := by
  obtain ⟨hsorted, hlength⟩ := isPlaced_placeAll ⟨List.Pairwise.nil, nofun⟩ found
  rw [inTextOrder, List.pairwise_map]
  refine hsorted.imp_of_mem fun {a b} ha hb hab => ?_
  rwa [hlength a ha, hlength b hb] at hab

theorem eq_of_pairwise_length {l₁ l₂ : List (List Char)} (h₁ : l₁.Pairwise (·.length > ·.length))
    (h₂ : l₂.Pairwise (·.length > ·.length)) (hmem : ∀ f, f ∈ l₁ ↔ f ∈ l₂) : l₁ = l₂ := by
  have hnodup {l : List (List Char)} (h : l.Pairwise (·.length > ·.length)) : l.Nodup := by
    refine List.nodup_iff_pairwise_ne.2 (h.imp fun {a b} hab => ?_)
    rintro rfl
    exact Nat.lt_irrefl _ hab
  refine ((List.perm_ext_iff_of_nodup (hnodup h₁) (hnodup h₂)).2 hmem).eq_of_pairwise ?_ h₁ h₂
  intro a b _ _ hab hba
  exact absurd hab (Nat.lt_asymm hba)

/-- The fragments with a value, in the order of the text, are known by how long they are. -/
theorem filter_inTextOrder {p : List Char → Bool} (hfound : ∀ f ∈ found, f <:+ text)
    (hkept : kept.Pairwise (·.length > ·.length)) (hmem : ∀ f, f ∈ kept ↔ f ∈ found ∧ p f) :
    (inTextOrder found).filter p = kept := by
  refine eq_of_pairwise_length ((pairwise_inTextOrder found).filter p) hkept fun f => ?_
  rw [List.mem_filter, mem_inTextOrder hfound, hmem]

end StatAlmanac.Label
