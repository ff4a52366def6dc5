import Mathlib.Data.List.Infix
import StatAlmanac.Page.Markup

/-!
Character entities are decoded one after the other, each in the text that the one before it has
left. Together this is one pass over the text: it takes every entity where it stands and never
looks at what it has written. A mark has an ampersand in front and nowhere else, so no two marks
overlap, and an entity leaves no character of a later mark, so it completes none. The entity that
leaves an ampersand comes last for that reason.
-/

namespace StatAlmanac.Page

variable {e : String × Char} {es fs : List (String × Char)} {mark s t u w : List Char}
  {c filler : Char}

/-- A pass over a text from left to right with a table of entities. An entity is replaced by its
character, other characters stay, and the pass goes on behind what it has taken. -/
inductive Pass (es : List (String × Char)) : List Char → List Char → Prop
  | done : Pass es [] []
  | entity {e : String × Char} {s t : List Char} : e ∈ es → Pass es s t →
      Pass es (e.1.toList ++ s) (e.2 :: t)
  | plain {c : Char} {s t : List Char} : (∀ e ∈ es, ¬e.1.toList <+: c :: s) → Pass es s t →
      Pass es (c :: s) (c :: t)

/-! ### Replacing a mark -/

theorem dropMark?_eq_some_iff : dropMark? mark s = some t ↔ s = mark ++ t := by
  induction mark generalizing s with
  | nil => simp [dropMark?]
  | cons a mark ih =>
      cases s with
      | nil => simp [dropMark?]
      | cons c s =>
          by_cases hc : a = c
          · simp [dropMark?, hc, ih]
          · simp [dropMark?, hc, Ne.symm hc]

theorem isSome_dropMark?_iff : (dropMark? mark s).isSome ↔ mark <+: s := by
  simp only [Option.isSome_iff_exists, dropMark?_eq_some_iff, List.prefix_iff_exists_eq_append]

theorem replaceFrom_skip (mark : List Char) (filler : Char) (skip : Nat) (s : List Char) :
    replaceFrom mark filler skip s = replaceFrom mark filler 0 (s.drop skip) := by
  induction s generalizing skip with
  | nil => rw [List.drop_nil, replaceFrom, replaceFrom]
  | cons c s ih =>
      cases skip with
      | zero => rfl
      | succ skip => rw [replaceFrom, ih, List.drop_succ_cons]

theorem replaceFrom_mark (a : Char) (filler : Char) (s : List Char) :
    replaceFrom (a :: mark) filler 0 (a :: (mark ++ s)) =
      filler :: replaceFrom (a :: mark) filler 0 s := by
  have hmark : (dropMark? (a :: mark) (a :: (mark ++ s))).isSome :=
    isSome_dropMark?_iff.2 ⟨s, rfl⟩
  rw [replaceFrom, if_pos hmark, replaceFrom_skip, List.length_cons, Nat.add_sub_cancel,
    List.drop_left]

theorem replaceFrom_cons (filler : Char) (h : ¬mark <+: c :: s) :
    replaceFrom mark filler 0 (c :: s) = c :: replaceFrom mark filler 0 s := by
  rw [replaceFrom, if_neg fun hmark => h (isSome_dropMark?_iff.1 hmark)]

theorem replaceFrom_append (filler : Char) (hw : '&' ∉ w) (s : List Char) :
    replaceFrom ('&' :: mark) filler 0 (w ++ s) = w ++ replaceFrom ('&' :: mark) filler 0 s := by
  induction w with
  | nil => rfl
  | cons a w ih =>
      have hstart : ¬('&' :: mark) <+: a :: (w ++ s) := fun hmark =>
        hw (List.mem_cons.2 (.inl (List.cons_prefix_cons.1 hmark).1))
      rw [List.cons_append, replaceFrom_cons filler hstart,
        ih (List.not_mem_of_not_mem_cons hw), List.cons_append]

theorem replaceFrom_of_not_hasMark (filler : Char) (h : hasMark mark s = false) :
    replaceFrom mark filler 0 s = s := by
  induction s with
  | nil => rfl
  | cons c s ih =>
      rw [hasMark, Bool.or_eq_false_iff] at h
      rw [replaceFrom, h.1, ih h.2]
      rfl

theorem decodeEntity_eq (s : List Char) (e : String × Char) :
    decodeEntity s e = replaceFrom e.1.toList e.2 0 s := by
  rw [decodeEntity]
  split
  · rfl
  · rename_i h
    rw [replaceFrom_of_not_hasMark _ (Bool.eq_false_iff.2 h)]

/-! ### Tables -/

/-- What lets the entities of a table be decoded one after the other. -/
structure IsLayered (es : List (String × Char)) : Prop where
  /-- A mark starts with the only ampersand in it. -/
  marked : ∀ e ∈ es, e.1.toList.head? = some '&' ∧ '&' ∉ e.1.toList.tail
  /-- No mark starts another. -/
  apart : ∀ e ∈ es, ∀ f ∈ es, e.1.toList <+: f.1.toList → e = f
  /-- What an entity leaves is no part of a later mark. -/
  later : es.Pairwise fun e f => e.2 ∉ f.1.toList

theorem IsLayered.mark_eq (h : IsLayered es) (he : e ∈ es) :
    ∃ w, e.1.toList = '&' :: w ∧ '&' ∉ w := by
  obtain ⟨hhead, htail⟩ := h.marked e he
  obtain ⟨w, hw⟩ := List.head?_eq_some_iff.1 hhead
  rw [hw, List.tail_cons] at htail
  exact ⟨w, hw, htail⟩

theorem IsLayered.mark_append_ne (h : IsLayered es) (he : e ∈ es) (s : List Char) :
    e.1.toList ++ s ≠ [] := by
  obtain ⟨w, hw, -⟩ := h.mark_eq he
  rw [hw]
  exact List.cons_ne_nil _ _

theorem IsLayered.left (h : IsLayered (es ++ fs)) : IsLayered es :=
  ⟨fun e he => h.marked e (List.mem_append_left fs he),
    fun e he f hf => h.apart e (List.mem_append_left fs he) f (List.mem_append_left fs hf),
    (List.pairwise_append.1 h.later).1⟩

theorem isLayered_entities : IsLayered entities := ⟨by decide, by decide, by decide⟩

/-! ### Passes -/

theorem pass_nil (s : List Char) : Pass [] s s := by
  induction s with
  | nil => exact .done
  | cons c s ih => exact .plain (by simp) ih

theorem Pass.of_append (h : Pass es (w ++ s) u) (hes : IsLayered es) (hw : '&' ∉ w) :
    ∃ v, u = w ++ v ∧ Pass es s v := by
  induction w generalizing u with
  | nil => exact ⟨u, rfl, h⟩
  | cons a w ih =>
      generalize hx : a :: w ++ s = x at h
      cases h with
      | done => cases hx
      | entity he _ =>
          obtain ⟨v, hv, -⟩ := hes.mark_eq he
          rw [hv] at hx
          exact absurd (List.cons.inj hx).1 (List.ne_of_not_mem_cons hw).symm
      | plain _ hrest =>
          obtain ⟨rfl, rfl⟩ := List.cons.inj hx
          obtain ⟨v, rfl, hv⟩ := ih hrest (List.not_mem_of_not_mem_cons hw)
          exact ⟨v, rfl, hv⟩

/-- What a pass writes starts with a text of other characters than it leaves only if the text that
it reads does. -/
theorem Pass.starts (h : Pass es s u) (hleft : ∀ e ∈ es, e.2 ∉ w) (hw : w <+: u) : w <+: s := by
  induction h generalizing w with
  | done => exact hw
  | entity he _ ih =>
      cases w with
      | nil => exact List.nil_prefix
      | cons a w =>
          obtain ⟨rfl, -⟩ := List.cons_prefix_cons.1 hw
          exact absurd List.mem_cons_self (hleft _ he)
  | plain _ _ ih =>
      cases w with
      | nil => exact List.nil_prefix
      | cons a w =>
          obtain ⟨rfl, hrest⟩ := List.cons_prefix_cons.1 hw
          exact List.cons_prefix_cons.2
            ⟨rfl, ih (fun e he => List.not_mem_of_not_mem_cons (hleft e he)) hrest⟩

/-- Another entity may be decoded behind a pass instead of with it. -/
theorem Pass.concat (h : Pass es s u) (hes : IsLayered (es ++ [e])) :
    Pass (es ++ [e]) s (decodeEntity u e) := by
  obtain ⟨w, hmark, hw⟩ := hes.mark_eq (List.mem_append_right es List.mem_cons_self)
  have hleft : ∀ f ∈ es, f.2 ∉ e.1.toList := fun f hf =>
    (List.pairwise_append.1 hes.later).2.2 f hf e List.mem_cons_self
  simp only [decodeEntity_eq]
  induction h with
  | done => exact .done
  | @entity f s u hf hrest ih =>
      have hstart : ¬e.1.toList <+: f.2 :: u := by
        intro hstart
        rw [hmark, List.cons_prefix_cons] at hstart
        exact hleft f hf (by rw [hmark, hstart.1]; exact List.mem_cons_self)
      rw [replaceFrom_cons _ hstart]
      exact .entity (List.mem_append_left _ hf) ih
  | @plain c s u hnone hrest ih =>
      by_cases hstart : e.1.toList <+: c :: s
      · -- the pass has left the mark as it stands, and so does decoding what is behind its
        -- ampersand
        rw [hmark, List.cons_prefix_cons] at hstart
        obtain ⟨rfl, t, rfl⟩ := hstart
        obtain ⟨v, rfl, -⟩ := hrest.of_append hes.left hw
        rw [hmark, replaceFrom_append _ hw] at ih
        obtain ⟨v', hv', hpass⟩ := ih.of_append hes hw
        rw [hmark, replaceFrom_mark, List.append_cancel_left hv']
        have hentity := hpass.entity (List.mem_append_right es List.mem_cons_self)
        rwa [hmark] at hentity
      · have hwritten : ¬e.1.toList <+: c :: u := fun hwritten =>
          hstart ((Pass.plain hnone hrest).starts hleft hwritten)
        rw [replaceFrom_cons _ hwritten]
        refine .plain (fun f hf => ?_) ih
        rcases List.mem_append.1 hf with hf | hf
        · exact hnone f hf
        · rwa [List.mem_singleton.1 hf]

theorem Pass.foldl (h : Pass es s u) (hes : IsLayered (es ++ fs)) :
    Pass (es ++ fs) s (fs.foldl decodeEntity u) := by
  induction fs generalizing es u with
  | nil =>
      rw [List.append_nil]
      exact h
  | cons f fs ih =>
      rw [List.append_cons] at hes ⊢
      exact ih (h.concat hes.left) hes

theorem pass_decodeEntities (s : List Char) : Pass entities s (decodeEntities s) := by
  have h : Pass ([] ++ entities) s (entities.foldl decodeEntity s) :=
    (pass_nil s).foldl isLayered_entities
  rwa [List.nil_append] at h

theorem Pass.of_entity (h : Pass es (e.1.toList ++ s) u) (hes : IsLayered es) (he : e ∈ es) :
    ∃ v, u = e.2 :: v ∧ Pass es s v := by
  generalize hx : e.1.toList ++ s = x at h
  cases h with
  | done => exact absurd hx (hes.mark_append_ne he s)
  | @entity f s' v hf hrest =>
      obtain rfl : e = f := by
        rcases List.prefix_or_prefix_of_prefix ⟨s, hx⟩ ⟨s', rfl⟩ with hef | hfe
        · exact hes.apart e he f hf hef
        · exact (hes.apart f hf e he hfe).symm
      obtain rfl := List.append_cancel_left hx
      exact ⟨v, rfl, hrest⟩
  | plain hnone _ => exact absurd ⟨s, hx⟩ (hnone e he)

theorem Pass.unique (h : Pass es s t) (hes : IsLayered es) (h' : Pass es s u) : t = u := by
  induction h generalizing u with
  | done =>
      generalize hx : ([] : List Char) = x at h'
      cases h' with
      | done => rfl
      | entity he _ => exact absurd hx.symm (hes.mark_append_ne he _)
      | plain _ _ => cases hx
  | entity he _ ih =>
      obtain ⟨v, rfl, hv⟩ := h'.of_entity hes he
      rw [ih hv]
  | @plain c s t hnone _ ih =>
      generalize hx : c :: s = x at h'
      cases h' with
      | done => cases hx
      | @entity e s' v he _ => exact absurd ⟨s', hx.symm⟩ (hnone e he)
      | plain _ hrest =>
          cases hx
          rw [ih hrest]

theorem decodeEntities_of_not_mem (h : '&' ∉ s) : decodeEntities s = s := by
  have hpass : Pass entities (s ++ []) (decodeEntities s) := by
    rw [List.append_nil]
    exact pass_decodeEntities s
  obtain ⟨v, hv, hrest⟩ := hpass.of_append isLayered_entities h
  rw [hv, hrest.unique isLayered_entities .done, List.append_nil]

/-- Decoding the entities one after the other gives what one pass with all of them gives, and there
is no other pass. So what stands behind an entity is decoded as if nothing were in front of it: the
character that an entity leaves is never part of another one. -/
theorem decodeEntities_one_pass (s : List Char) :
    (∀ t, Pass entities s t ↔ decodeEntities s = t) ∧
    ∀ e ∈ entities, decodeEntities (e.1.toList ++ s) = e.2 :: decodeEntities s := by
  have hpass := pass_decodeEntities s
  refine ⟨fun t => ⟨fun h => hpass.unique isLayered_entities h, ?_⟩, fun e he => ?_⟩
  · rintro rfl
    exact hpass
  · exact (pass_decodeEntities _).unique isLayered_entities (hpass.entity he)

/-- The ampersand that is left completes no entity. -/
theorem decodeEntities_one_pass_ampersand :
    ("&amp;", '&') ∈ entities ∧
      decodeEntities ("&amp;".toList ++ "lt;".toList) = '&' :: decodeEntities "lt;".toList ∧
      decodeEntities "lt;".toList = "lt;".toList := by
  have hmem : ("&amp;", '&') ∈ entities := by decide
  have hdecoded := (decodeEntities_one_pass "lt;".toList).2 ("&amp;", '&') hmem
  exact ⟨hmem, hdecoded, decodeEntities_of_not_mem (by decide)⟩

end StatAlmanac.Page
