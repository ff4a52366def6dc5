import StatAlmanac.Formula.Fragment
import StatAlmanac.Proofs.Text.Committed

/-!
Numerals are read in one pass. A numeral is as long as can be: a digit, digits
and commas, and then every group of a point and digits. What follows a numeral
on a page starts with none of these characters, so no shorter reading matters.
-/

namespace StatAlmanac.Fragment

open Text Text.Reader

/-- A numeral in its parts: digits and commas, and the digits behind each point. -/
structure Numeral where
  whole : List Char
  groups : List (List Char)

def isWhole (c : Char) : Bool := isDigit c || c == ','

def isNumeralChar (c : Char) : Bool := isWhole c || c == '.'

namespace Numeral

def text (n : Numeral) : List Char := n.whole ++ n.groups.flatMap ('.' :: ·)

/-- A decimal number, commas left out. It has at most one point. -/
def value? (n : Numeral) : Option Float :=
  let digits (s : List Char) : Nat := decimalValue?.digitsValue (s.filter (· != ','))
  match n.groups with
  | [] => some (Float.ofScientific (digits n.whole) false 0)
  | [fraction] => some (Float.ofScientific (digits (n.whole ++ fraction)) true fraction.length)
  | _ => none

end Numeral

def pointGroups : List Char → List (List Char) × List Char
  | '.' :: d :: s =>
      if isDigit d then
        let more := pointGroups (s.dropWhile isDigit)
        ((d :: s.takeWhile isDigit) :: more.1, more.2)
      else ([], '.' :: d :: s)
  | s => ([], s)
termination_by s => s.length
decreasing_by
  have hle := (List.dropWhile_suffix isDigit (l := s)).length_le
  simp only [List.length_cons]
  omega

def numeral? : List Char → Option (Numeral × List Char)
  | d :: s =>
      if isDigit d then
        let more := pointGroups (s.dropWhile isWhole)
        some (⟨d :: s.takeWhile isWhole, more.1⟩, more.2)
      else none
  | [] => none

/-! ### The characters of a numeral -/

theorem isDigit_iff {c : Char} : isDigit c ↔ 48 ≤ c.toNat ∧ c.toNat ≤ 57 := by
  rw [isDigit, Bool.and_eq_true, decide_eq_true_iff, decide_eq_true_iff]
  exact Iff.rfl

theorem isNumeralChar_of_isWhole {c : Char} (h : isWhole c) : isNumeralChar c := by
  rw [isNumeralChar, h, Bool.true_or]

theorem isWhole_of_isDigit {c : Char} (h : isDigit c) : isWhole c := by
  rw [isWhole, h, Bool.true_or]

theorem isNumeralChar_of_isDigit {c : Char} (h : isDigit c) : isNumeralChar c :=
  isNumeralChar_of_isWhole (isWhole_of_isDigit h)

/-- The characters of a numeral stand together among the code points. -/
theorem toNat_of_isNumeralChar {c : Char} (h : isNumeralChar c) : 44 ≤ c.toNat ∧ c.toNat ≤ 57 := by
  rw [isNumeralChar, isWhole, Bool.or_eq_true, Bool.or_eq_true, isDigit_iff, beq_iff_eq,
    beq_iff_eq] at h
  rcases h with (h | rfl) | rfl
  · omega
  · decide
  · decide

theorem not_isBlank_of_isNumeralChar {c : Char} (h : isNumeralChar c) : isBlank c = false := by
  have hrange := toNat_of_isNumeralChar h
  simp only [isBlank, blankRanges, Ranges.has]
  simp
  omega

theorem fold_of_isNumeralChar {c : Char} (h : isNumeralChar c) : fold c = c := by
  have hall : ∀ n ∈ List.range' 44 14, fold (Char.ofNat n) = Char.ofNat n := by decide
  have hfold := hall c.toNat (by
    have hrange := toNat_of_isNumeralChar h
    rw [List.mem_range'_1]
    omega)
  rwa [Char.ofNat_toNat] at hfold

theorem sameLetter_isNumeralChar {a c : Char} (ha : isNumeralChar (fold a) = false)
    (h : isNumeralChar c) : sameLetter a c = false := by
  apply Bool.eq_false_iff.2
  intro hsame
  have hfold : fold a = fold c := eq_of_beq hsame
  rw [fold_of_isNumeralChar h] at hfold
  rw [hfold, h] at ha
  cases ha

/-! ### One pass -/

def pointGroup : Reader Unit := do
  one (· == '.')
  one isDigit
  many isDigit

theorem advances_pointGroup : pointGroup.Advances :=
  (advances_one _).bind fun _ => (advances_one _).keeps.bind fun _ => keeps_many _

theorem refuses_pointGroup {p : Char → Bool} (h : ∀ c, p c → (c == '.') = false) :
    pointGroup.Refuses p :=
  (refuses_one h).bind _

theorem pointGroup_cons {d : Char} (hd : isDigit d) (s : List Char) :
    pointGroup ('.' :: d :: s) = many isDigit s := by
  have hone : pointGroup ('.' :: d :: s) = (one isDigit >>= fun _ => many isDigit) (d :: s) :=
    one_bind_cons _ _ _ _
  rw [hone, one_bind_cons, if_pos hd]

theorem pointGroup_of_not_isDigit {d : Char} (hd : ¬isDigit d) (s : List Char) :
    pointGroup ('.' :: d :: s) = [] := by
  have hone : pointGroup ('.' :: d :: s) = (one isDigit >>= fun _ => many isDigit) (d :: s) :=
    one_bind_cons _ _ _ _
  rw [hone, one_bind_cons, if_neg hd]

theorem pointGroup_eq_nil {s : List Char} (h : ∀ d t, s ≠ '.' :: d :: t) : pointGroup s = [] := by
  cases s with
  | nil => rfl
  | cons c t =>
      by_cases hc : c = '.'
      · subst hc
        cases t with
        | nil => rfl
        | cons d t => exact absurd rfl (h d t)
      · exact refuses_pointGroup (p := (· == c)) (by simpa using hc) c t (beq_self_eq_true c)

def groupRow : Reader Unit := star pointGroup

theorem groupRow_apply (s : List Char) :
    groupRow s = (pointGroup >>= fun _ => groupRow) s ++ [((), s)] :=
  star_eq advances_pointGroup s

theorem groupRow_of_eq_nil {s : List Char} (h : pointGroup s = []) : groupRow s = [((), s)] := by
  rw [groupRow_apply, bind_apply, h]
  rfl

theorem refuses_groupRow_bind {β : Type} {f : Unit → Reader β}
    (h : (f ()).Refuses isNumeralChar) : (groupRow >>= f).Refuses isWhole := by
  intro c s hc
  have hpoint : ∀ c, isWhole c → (c == '.') = false := by
    intro c hc
    rw [beq_eq_false_iff_ne]
    rintro rfl
    exact absurd hc (by decide)
  rw [bind_apply, groupRow_of_eq_nil (refuses_pointGroup hpoint c s hc)]
  exact (List.append_nil _).trans (h c s (isNumeralChar_of_isWhole hc))

/-- All groups are taken, if what follows starts with no character of a numeral. -/
theorem groupRow_bind {β : Type} {f : Unit → Reader β} (h : (f ()).Refuses isNumeralChar)
    (s : List Char) : (groupRow >>= f) s = f () (pointGroups s).2 := by
  fun_induction pointGroups s with
  | case1 d s hd more ih =>
      have hskip : f () ('.' :: d :: s) = [] := h '.' _ rfl
      have hdigits : (groupRow >>= f).Refuses isDigit := fun c t hc =>
        refuses_groupRow_bind h c t (isWhole_of_isDigit hc)
      have hmore : ((pointGroup >>= fun _ => groupRow) >>= f) ('.' :: d :: s) =
          f () (pointGroups (s.dropWhile isDigit)).2 := by
        rw [bind_assoc, bind_apply, pointGroup_cons hd, ← ih]
        exact many_bind_apply (f := fun _ => groupRow >>= f) hdigits s
      rw [bind_apply, groupRow_apply, List.flatMap_append]
      show ((pointGroup >>= fun _ => groupRow) >>= f) ('.' :: d :: s) ++
        (f () ('.' :: d :: s) ++ []) = _
      rw [hmore, hskip, List.append_nil, List.append_nil]
  | case2 d s hd =>
      rw [bind_apply, groupRow_of_eq_nil (pointGroup_of_not_isDigit hd s)]
      exact List.append_nil _
  | case3 s hnone =>
      rw [bind_apply, groupRow_of_eq_nil (pointGroup_eq_nil fun d t hs => hnone d t hs)]
      exact List.append_nil _

theorem first?_groupRow (s : List Char) : groupRow.first? s = some ((), (pointGroups s).2) := by
  fun_induction pointGroups s with
  | case1 d s hd more ih =>
      have hgroup : pointGroup.first? ('.' :: d :: s) = some ((), s.dropWhile isDigit) := by
        rw [first?, readings, pointGroup_cons hd]
        exact first?_many isDigit s
      have hmore := first?_bind (f := fun _ => groupRow) hgroup ih
      rw [first?, readings] at hmore ⊢
      rw [groupRow_apply, List.head?_append, hmore, Option.some_or]
  | case2 d s hd =>
      rw [first?, readings, groupRow_of_eq_nil (pointGroup_of_not_isDigit hd s)]
      rfl
  | case3 s hnone =>
      rw [first?, readings, groupRow_of_eq_nil (pointGroup_eq_nil fun d t hs => hnone d t hs)]
      rfl

def numeralEnd : Reader Unit := do
  one isDigit
  many isWhole
  groupRow

theorem numeral_apply (s : List Char) :
    numeral s = (numeralEnd s).map fun x => (⟨s, x.2⟩, x.2) := rfl

theorem numeral?_of_isDigit {d : Char} (h : isDigit d) (s : List Char) :
    numeral? (d :: s) =
      some (⟨d :: s.takeWhile isWhole, (pointGroups (s.dropWhile isWhole)).1⟩,
        (pointGroups (s.dropWhile isWhole)).2) := by
  rw [numeral?, if_pos h]

theorem numeral?_of_not_isDigit {c : Char} (h : ¬isDigit c) (s : List Char) :
    numeral? (c :: s) = none := by
  rw [numeral?, if_neg h]

theorem numeral_of_not_isDigit {c : Char} (h : ¬isDigit c) (s : List Char) :
    numeral (c :: s) = [] := by
  rw [numeral_apply, numeralEnd, one_bind_cons, if_neg h]
  rfl

theorem numeral_bind {β : Type} {f : Span → Reader β} (h : ∀ n, (f n).Refuses isNumeralChar)
    (s : List Char) :
    (numeral >>= f) s = (numeral? s).elim [] fun r => f ⟨s, r.2⟩ r.2 := by
  cases s with
  | nil => rfl
  | cons d t =>
      by_cases hd : isDigit d
      · -- what follows is given the stretch of text that was read
        let after : Unit → Reader β := fun _ rest => f ⟨d :: t, rest⟩ rest
        have hafter : (after ()).Refuses isNumeralChar := fun c rest => h _ c rest
        calc (numeral >>= f) (d :: t)
            = (numeralEnd >>= after) (d :: t) := by
              rw [bind_apply, numeral_apply, List.flatMap_map]
              rfl
          _ = (many isWhole >>= fun _ => groupRow >>= after) t := by
              rw [numeralEnd, bind_assoc, one_bind_cons, if_pos hd, bind_assoc]
          _ = after () (pointGroups (t.dropWhile isWhole)).2 := by
              rw [many_bind_apply (refuses_groupRow_bind hafter)]
              exact groupRow_bind hafter _
          _ = _ := by rw [numeral?_of_isDigit hd]; rfl
      · rw [bind_apply, numeral_of_not_isDigit hd, numeral?_of_not_isDigit hd]
        rfl

theorem first?_numeral (s : List Char) :
    numeral.first? s = (numeral? s).map fun r => (⟨s, r.2⟩, r.2) := by
  cases s with
  | nil => rfl
  | cons d t =>
      by_cases hd : isDigit d
      · have hdigit : (one isDigit).first? (d :: t) = some ((), t) := by
          rw [first?, readings, one, if_pos hd]
          rfl
        have hend : numeralEnd.first? (d :: t) =
            some ((), (pointGroups (t.dropWhile isWhole)).2) :=
          first?_bind hdigit (first?_bind (first?_many isWhole t) (first?_groupRow _))
        rw [first?, readings] at hend ⊢
        rw [numeral_apply, List.head?_map, hend, numeral?_of_isDigit hd]
        rfl
      · rw [first?, readings, numeral_of_not_isDigit hd, numeral?_of_not_isDigit hd]
        rfl

/-! ### What a numeral is worth -/

/-- A numeral as it can stand on a page. -/
structure Numeral.IsWritten (n : Numeral) : Prop where
  starts : n.whole.head?.any isDigit
  whole : ∀ c ∈ n.whole, isWhole c
  groups : ∀ g ∈ n.groups, g ≠ [] ∧ ∀ c ∈ g, isDigit c

theorem pointGroups_append (s : List Char) :
    (pointGroups s).1.flatMap ('.' :: ·) ++ (pointGroups s).2 = s := by
  fun_induction pointGroups s with
  | case1 d s hd more ih =>
      rw [List.flatMap_cons, List.append_assoc, ih]
      simp
  | case2 => rfl
  | case3 => rfl

theorem isDigit_of_mem_pointGroups (s : List Char) :
    ∀ g ∈ (pointGroups s).1, g ≠ [] ∧ ∀ c ∈ g, isDigit c := by
  fun_induction pointGroups s with
  | case1 d s hd more ih =>
      intro g hg
      rcases List.mem_cons.1 hg with rfl | hg
      · refine ⟨List.cons_ne_nil d _, fun c hc => ?_⟩
        rcases List.mem_cons.1 hc with rfl | hc
        · exact hd
        · exact List.all_eq_true.1 List.all_takeWhile c hc
      · exact ih g hg
  | case2 => exact nofun
  | case3 => exact nofun

theorem numeral?_eq_some {s rest : List Char} {n : Numeral} (h : numeral? s = some (n, rest)) :
    s = n.text ++ rest ∧ n.IsWritten := by
  cases s with
  | nil => cases h
  | cons d s =>
      by_cases hd : isDigit d
      · rw [numeral?_of_isDigit hd, Option.some.injEq, Prod.mk.injEq] at h
        obtain ⟨rfl, rfl⟩ := h
        refine ⟨?_, hd, ?_, isDigit_of_mem_pointGroups _⟩
        · rw [Numeral.text, List.append_assoc, pointGroups_append, List.cons_append,
            List.takeWhile_append_dropWhile]
        · intro c hc
          rcases List.mem_cons.1 hc with rfl | hc
          · exact isWhole_of_isDigit hd
          · exact List.all_eq_true.1 List.all_takeWhile c hc
      · rw [numeral?_of_not_isDigit hd] at h
        cases h

theorem splitOn_flatMap {w : List Char} {groups : List (List Char)} (hw : '.' ∉ w)
    (hgroups : ∀ g ∈ groups, '.' ∉ g) :
    (w ++ groups.flatMap ('.' :: ·)).splitOn '.' = w :: groups := by
  induction groups generalizing w with
  | nil => rw [List.flatMap_nil, List.append_nil, List.splitOn_eq_singleton hw]
  | cons g groups ih =>
      rw [List.flatMap_cons, List.cons_append, List.splitOn_append_cons_self,
        List.splitOn_eq_singleton hw,
        ih (hgroups g List.mem_cons_self) fun g hg => hgroups g (List.mem_cons_of_mem _ hg)]
      rfl

theorem filter_of_isDigit {s : List Char} (h : ∀ c ∈ s, isDigit c) : s.filter (· != ',') = s := by
  rw [List.filter_eq_self]
  intro c hc
  rw [bne_iff_ne]
  rintro rfl
  exact absurd (h _ hc) (by decide)

theorem Numeral.IsWritten.filter_groups {n : Numeral} (h : n.IsWritten) :
    (n.groups.flatMap ('.' :: ·)).filter (· != ',') = n.groups.flatMap ('.' :: ·) := by
  rw [List.filter_eq_self]
  intro c hc
  obtain ⟨g, hg, hc⟩ := List.mem_flatMap.1 hc
  rw [bne_iff_ne]
  rintro rfl
  rcases List.mem_cons.1 hc with hc | hc
  · exact absurd hc (by decide)
  · exact absurd ((h.groups g hg).2 _ hc) (by decide)

theorem Numeral.IsWritten.decimalValue? {n : Numeral} (h : n.IsWritten) :
    Fragment.decimalValue? (n.text.filter (· != ',')) = n.value? := by
  have hpoint {c : Char} (hc : isWhole c) : c ≠ '.' := by
    rintro rfl
    exact absurd hc (by decide)
  have hsplit : (n.text.filter (· != ',')).splitOn '.' =
      n.whole.filter (· != ',') :: n.groups := by
    rw [text, List.filter_append, h.filter_groups]
    apply splitOn_flatMap
    · intro hmem
      exact hpoint (h.whole _ (List.mem_of_mem_filter hmem)) rfl
    · intro g hg hmem
      exact hpoint (isWhole_of_isDigit ((h.groups g hg).2 _ hmem)) rfl
  rw [Fragment.decimalValue?, hsplit, value?]
  obtain ⟨whole, groups⟩ := n
  match groups with
  | [] => rfl
  | [fraction] =>
      have hfraction := filter_of_isDigit (h.groups fraction List.mem_cons_self).2
      simp only [List.filter_append, hfraction]
  | _ :: _ :: _ => rfl

/-- The stretch of text that was read as a numeral has the numeral's value. -/
theorem value?_span {s rest : List Char} {n : Numeral} (h : numeral? s = some (n, rest)) :
    Span.value? ⟨s, rest⟩ = n.value? := by
  obtain ⟨rfl, hwritten⟩ := numeral?_eq_some h
  have htext : Span.text ⟨n.text ++ rest, rest⟩ = n.text := by
    rw [Span.text, List.length_append, Nat.add_sub_cancel]
    exact List.take_left
  rw [Span.value?, htext, hwritten.decimalValue?]

/-! ### Reading back what was written -/

theorem takeWhile_append {p : Char → Bool} {s rest : List Char} (hs : ∀ c ∈ s, p c)
    (hrest : ∀ c ∈ rest.head?, p c = false) : (s ++ rest).takeWhile p = s := by
  rw [List.takeWhile_append_of_pos hs]
  cases rest with
  | nil => exact List.append_nil s
  | cons c rest =>
      rw [List.takeWhile_cons_of_neg (by simp [hrest c rfl]), List.append_nil]

theorem dropWhile_append {p : Char → Bool} {s rest : List Char} (hs : ∀ c ∈ s, p c)
    (hrest : ∀ c ∈ rest.head?, p c = false) : (s ++ rest).dropWhile p = rest := by
  rw [List.dropWhile_append_of_pos hs]
  cases rest with
  | nil => rfl
  | cons c rest => exact List.dropWhile_cons_of_neg (by simp [hrest c rfl])

theorem isDigit_eq_false {c : Char} (h : isNumeralChar c = false) : isDigit c = false := by
  rw [isNumeralChar, isWhole, Bool.or_eq_false_iff, Bool.or_eq_false_iff] at h
  exact h.1.1

theorem isWhole_eq_false {c : Char} (h : isNumeralChar c = false) : isWhole c = false :=
  (Bool.or_eq_false_iff.1 h).1

theorem head?_not_isNumeralChar {a : Char} (ha : isNumeralChar a = false) (s : List Char) :
    ∀ c ∈ (a :: s).head?, isNumeralChar c = false := by
  intro c hc
  obtain rfl := Option.some.inj hc
  exact ha

/-- What stands behind a part of a numeral: more groups, or no character of a numeral. -/
theorem head?_groups {groups : List (List Char)} {rest : List Char} {c : Char}
    (hrest : ∀ c ∈ rest.head?, isNumeralChar c = false)
    (hc : c ∈ (groups.flatMap ('.' :: ·) ++ rest).head?) : c = '.' ∨ isNumeralChar c = false := by
  cases groups with
  | nil => exact .inr (hrest c hc)
  | cons g groups => exact .inl (Option.some.inj hc).symm

theorem pointGroups_text {groups : List (List Char)} {rest : List Char}
    (hgroups : ∀ g ∈ groups, g ≠ [] ∧ ∀ c ∈ g, isDigit c)
    (hrest : ∀ c ∈ rest.head?, isNumeralChar c = false) :
    pointGroups (groups.flatMap ('.' :: ·) ++ rest) = (groups, rest) := by
  induction groups with
  | nil =>
      rw [List.flatMap_nil, List.nil_append]
      unfold pointGroups
      split
      · have hpoint := hrest '.' rfl
        cases hpoint
      · rfl
  | cons g groups ih =>
      have hmore := ih fun g hg => hgroups g (List.mem_cons_of_mem _ hg)
      obtain ⟨hne, hdigits⟩ := hgroups g List.mem_cons_self
      obtain ⟨d, ds, rfl⟩ := List.exists_cons_of_ne_nil hne
      have hds : ∀ c ∈ ds, isDigit c := fun c hc => hdigits c (List.mem_cons_of_mem _ hc)
      have hnext : ∀ c ∈ (groups.flatMap ('.' :: ·) ++ rest).head?, isDigit c = false := by
        intro c hc
        rcases head?_groups hrest hc with rfl | hc
        · rfl
        · exact isDigit_eq_false hc
      rw [List.flatMap_cons, List.append_assoc, List.cons_append, List.cons_append, pointGroups,
        if_pos (hdigits d List.mem_cons_self), takeWhile_append hds hnext,
        dropWhile_append hds hnext, hmore]

/-- A numeral is read back if what follows does not go on with it. -/
theorem Numeral.IsWritten.numeral? {n : Numeral} (h : n.IsWritten) {rest : List Char}
    (hrest : ∀ c ∈ rest.head?, isNumeralChar c = false) :
    Fragment.numeral? (n.text ++ rest) = some (n, rest) := by
  obtain ⟨whole, groups⟩ := n
  cases whole with
  | nil => cases h.starts
  | cons d ds =>
      have hd : isDigit d := h.starts
      have hds : ∀ c ∈ ds, isWhole c := fun c hc => h.whole c (List.mem_cons_of_mem _ hc)
      have hnext : ∀ c ∈ (groups.flatMap ('.' :: ·) ++ rest).head?, isWhole c = false := by
        intro c hc
        rcases head?_groups hrest hc with rfl | hc
        · rfl
        · exact isWhole_eq_false hc
      rw [text, List.append_assoc, List.cons_append, numeral?_of_isDigit hd,
        takeWhile_append hds hnext, dropWhile_append hds hnext, pointGroups_text h.groups hrest]

end StatAlmanac.Fragment
