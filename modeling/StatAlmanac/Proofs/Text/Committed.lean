import Mathlib.Data.List.Basic
import StatAlmanac.Proofs.Text.Folded
import StatAlmanac.Text.Progress

/-!
Readers that need not go back. Of all the readings of a part the preferred one
alone counts when what follows it refuses the texts that the others leave. A
sequence is then read in one pass, and each rule here takes the pass one part
further.
-/

namespace StatAlmanac.Text.Reader

variable {α β : Type} {p : Char → Bool} {s rest : List Char}

def Refuses (r : Reader α) (p : Char → Bool) : Prop := ∀ c s, p c → r (c :: s) = []

theorem refuses_one {q : Char → Bool} (h : ∀ c, p c → q c = false) : (one q).Refuses p := by
  intro c s hc
  rw [one, h c hc, if_neg Bool.false_ne_true]

theorem refuses_word {a : Char} (name : List Char) (h : ∀ c, p c → sameLetter a c = false) :
    (word (a :: name)).Refuses p := by
  intro c s hc
  rw [word, dropName?, h c hc]
  rfl

theorem Refuses.bind {r : Reader α} (h : r.Refuses p) (f : α → Reader β) :
    (r >>= f).Refuses p := by
  intro c s hc
  show (r (c :: s)).flatMap _ = []
  rw [h c s hc]
  rfl

theorem Refuses.orElse {r other : Reader α} (hr : r.Refuses p) (ho : other.Refuses p) :
    (r.orElse other).Refuses p := by
  intro c s hc
  rw [Reader.orElse, hr c s hc, ho c s hc]
  rfl

/-! ### One part and what follows -/

/-- A step of a pass gives the text behind what it takes, if it can take it. -/
abbrev Step := List Char → Option (List Char)

def after (t : Step) (r : Reader α) : Reader α := fun s => (t s).elim [] r

theorem after_some {t : Step} (h : t s = some rest) (r : Reader α) : after t r s = r rest := by
  rw [after, h]
  rfl

theorem after_none {t : Step} (h : t s = none) (r : Reader α) : after t r s = [] := by
  rw [after, h]
  rfl

theorem after_congr {t u : Step} (h : t s = u s) (r : Reader α) : after t r s = after u r s := by
  rw [after, after, h]

theorem after_after (t u : Step) (r : Reader α) :
    after t (after u r) = after (fun s => (t s).bind u) r := by
  funext s
  rw [after, after]
  cases t s <;> rfl

theorem bind_apply (r : Reader α) (f : α → Reader β) (s : List Char) :
    (r >>= f) s = (r s).flatMap fun x => f x.1 x.2 := rfl

theorem andThen_result (r : Reader α) : r.andThen result = r := by
  funext s
  show (r s).flatMap (fun x => [x]) = r s
  rw [List.flatMap_singleton']

theorem result_andThen (a : α) (f : α → Reader β) : (result a).andThen f = f a := by
  funext s
  exact List.append_nil _

theorem andThen_assoc {γ : Type} (r : Reader α) (f : α → Reader β) (g : β → Reader γ) :
    (r.andThen f).andThen g = r.andThen fun a => (f a).andThen g := by
  funext s
  exact List.flatMap_assoc

instance : LawfulMonad Reader := .mk' _ andThen_result result_andThen andThen_assoc

theorem one_bind_cons (q : Char → Bool) (f : Unit → Reader β) (c : Char) (s : List Char) :
    (one q >>= f) (c :: s) = if q c then f () s else [] := by
  rw [bind_apply, one]
  split
  · exact List.append_nil _
  · rfl

theorem word_bind (name : List Char) (f : Unit → Reader β) :
    (word name >>= f) = after (dropName? name) (f ()) := by
  funext s
  rw [bind_apply, word, after]
  cases dropName? name s with
  | none => rfl
  | some rest => exact List.append_nil _

/-- A word that ends in front of a character which none of its letters is like. -/
theorem dropName?_append_cons {name : List Char} {b : Char}
    (hb : ∀ a ∈ name, sameLetter a b = false)
    {t : List Char} (h : dropName? name (s ++ b :: rest) = some t) :
    ∃ u, t = u ++ b :: rest ∧ dropName? name s = some u := by
  induction name generalizing s with
  | nil => exact ⟨s, (Option.some.inj h).symm, rfl⟩
  | cons a name ih =>
      cases s with
      | nil =>
          rw [List.nil_append, dropName?, hb a List.mem_cons_self] at h
          cases h
      | cons c s =>
          rw [List.cons_append, dropName?] at h
          split at h
          · rename_i hc
            obtain ⟨u, rfl, hu⟩ := ih (fun a ha => hb a (List.mem_cons_of_mem _ ha)) h
            exact ⟨u, rfl, by rw [dropName?, if_pos hc, hu]⟩
          · cases h

theorem orElse_bind (r other : Reader α) (f : α → Reader β) (s : List Char) :
    (r.orElse other >>= f) s = (r >>= f) s ++ (other >>= f) s :=
  List.flatMap_append

theorem optional_bind (r : Reader Unit) (f : Unit → Reader β) (s : List Char) :
    (optional r >>= f) s = (r >>= f) s ++ f () s := by
  rw [optional, orElse_bind]
  exact congrArg _ (List.append_nil _)

/-- As many characters as possible are taken, if what follows starts with no other of them. -/
theorem many_bind_apply {f : Unit → Reader β} (h : (f ()).Refuses p) (s : List Char) :
    (many p >>= f) s = f () (s.dropWhile p) := by
  rw [bind_apply, many, List.flatMap_map]
  induction s with
  | nil => exact List.append_nil _
  | cons c s ih =>
      rw [stops, List.reverse_cons, List.flatMap_append]
      by_cases hc : p c
      · rw [if_pos hc, List.dropWhile_cons_of_pos hc, ih]
        have hrefused : f () (c :: s) = [] := h c s hc
        show _ ++ (f () (c :: s) ++ []) = _
        rw [hrefused, List.append_nil, List.append_nil]
      · rw [if_neg hc, List.dropWhile_cons_of_neg hc]
        exact List.append_nil _

theorem blanks_bind_apply {f : Unit → Reader β} (h : (f ()).Refuses isBlank) (s : List Char) :
    (blanks >>= f) s = f () (trimStart s) := many_bind_apply h s

theorem blanks_bind {f : Unit → Reader β} (h : (f ()).Refuses isBlank) :
    (blanks >>= f) = after (some ∘ trimStart) (f ()) := by
  funext s
  exact blanks_bind_apply h s

theorem refuses_blanks_bind {f : Unit → Reader β} (hsolid : ∀ c, p c → isBlank c = false)
    (h : (f ()).Refuses p) : (blanks >>= f).Refuses p := by
  intro c s hc
  have hstops : blanks (c :: s) = [((), c :: s)] := by
    rw [blanks, many, stops, hsolid c hc]
    rfl
  rw [bind_apply, hstops]
  exact (List.append_nil _).trans (h c s hc)

theorem refuses_optional_bind {r : Reader Unit} {f : Unit → Reader β} (hr : r.Refuses p)
    (h : (f ()).Refuses p) : (optional r >>= f).Refuses p := by
  intro c s hc
  rw [optional_bind, hr.bind f c s hc, h c s hc]
  rfl

/-! ### Preferred readings -/

theorem first?_after (t : Step) (r : Reader α) (s : List Char) :
    (after t r).first? s = (t s).bind r.first? := by
  rw [first?, readings, after]
  cases t s <;> rfl

theorem first?_bind {r : Reader α} {f : α → Reader β} {a : α} {x : β × List Char}
    (hr : r.first? s = some (a, rest)) (hnext : (f a).first? rest = some x) :
    (r >>= f).first? s = some x := by
  obtain ⟨more, hmore⟩ := List.head?_eq_some_iff.1 hr
  obtain ⟨others, hothers⟩ := List.head?_eq_some_iff.1 hnext
  have hreadings : (r >>= f) s = x :: (others ++ more.flatMap fun y => f y.1 y.2) := by
    rw [bind_apply, show r s = _ from hmore, List.flatMap_cons, show f a rest = _ from hothers]
    rfl
  rw [first?, readings, hreadings]
  rfl

theorem first?_many (p : Char → Bool) (s : List Char) :
    (many p).first? s = some ((), s.dropWhile p) := by
  rw [first?, readings, many, List.head?_map, List.head?_reverse]
  induction s with
  | nil => rfl
  | cons c s ih =>
      rw [stops, List.getLast?_cons]
      by_cases hc : p c
      · rw [if_pos hc, List.dropWhile_cons_of_pos hc]
        cases hlast : (stops p s).getLast? with
        | none =>
            rw [hlast] at ih
            cases ih
        | some t =>
            rw [hlast] at ih
            exact ih
      · rw [if_neg hc, List.dropWhile_cons_of_neg hc]
        rfl

/-- The preferred reading of a part decides if nothing can follow the others when nothing follows
it. -/
theorem first?_bind_of_decides {r : Reader α} {f : α → Reader β} {a : α}
    (hr : r.first? s = some (a, rest))
    (hnone : f a rest = [] → ∀ x ∈ r s, f x.1 x.2 = []) :
    (r >>= f).first? s = (f a).first? rest := by
  cases hnext : (f a).first? rest with
  | some x => exact first?_bind hr hnext
  | none =>
      have hempty : (r >>= f) s = [] :=
        List.flatMap_eq_nil_iff.2 (hnone (List.head?_eq_none_iff.1 hnext))
      rw [first?, readings, hempty]
      rfl

theorem first?_orElse {r : Reader α} {x : α × List Char} (h : r.first? s = some x)
    (other : Reader α) :
    (r.orElse other).first? s = some x := by
  obtain ⟨more, hmore⟩ := List.head?_eq_some_iff.1 h
  rw [first?, readings, orElse, show r s = _ from hmore]
  rfl

theorem first?_orElse_of_eq_nil {r : Reader α} (h : r s = []) (other : Reader α) :
    (r.orElse other).first? s = other.first? s := by
  rw [first?, readings, orElse, h]
  rfl

theorem first?_seek {r : Reader α} {x : α × List Char} (h : r.first? s = some x) :
    (seek r).first? s = some x := by
  cases s with
  | nil => exact h
  | cons c s =>
      rw [first?, readings, seek]
      split
      · rename_i hnil
        rw [first?, readings, hnil] at h
        cases h
      · exact h

theorem seek_append {r : Reader α} {t : List Char} (h : ∀ u, u ≠ [] → u <:+ t → r (u ++ s) = []) :
    seek r (t ++ s) = seek r s := by
  induction t with
  | nil => rfl
  | cons c t ih =>
      have hnil : r (c :: (t ++ s)) = [] := h (c :: t) (List.cons_ne_nil c t) (List.suffix_refl _)
      rw [List.cons_append, seek, hnil]
      exact ih fun u hne hu => h u hne (hu.trans (List.suffix_cons c t))

theorem star_eq {r : Reader Unit} (h : r.Advances) (s : List Char) :
    star r s = ((r >>= fun _ => star r) s) ++ [((), s)] := by
  rw [star]
  refine congrArg (· ++ [((), s)]) (List.flatMap_congr ?_)
  rintro ⟨_, rest⟩ hrest
  exact if_pos (h s _ hrest)

end StatAlmanac.Text.Reader
