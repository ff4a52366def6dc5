import StatAlmanac.Formula.Label

/-!
Where labels occur, and what the two searches for formulas make of it. The first
formula for some labels is one of all formulas for them. The searches differ in
one case: a text in which labels occur, none with a value, is read as a fragment
by the search for all formulas alone.
-/

namespace StatAlmanac

open Text

namespace Label

variable {name text s rest word front back : List Char} {before last : Option Char}

/-- The last character of a stretch of text, or what was before it if it is empty. -/
def lastOf (before : Option Char) (word : List Char) : Option Char := word.getLast?.or before

theorem lastOf_cons (before : Option Char) (c : Char) (word : List Char) :
    lastOf before (c :: word) = lastOf (some c) word := by
  rw [lastOf, lastOf, List.getLast?_cons]
  cases word.getLast? <;> rfl

theorem lastOf_append (before : Option Char) (front word : List Char) :
    lastOf before (front ++ word) = lastOf (lastOf before front) word := by
  rw [lastOf, lastOf, lastOf, List.getLast?_append, Option.or_assoc]

/-- `name` stands in `text` as a whole word, case aside. -/
def Occurs (name text : List Char) : Prop :=
  ∃ front word back, text = front ++ word ++ back ∧ word.map fold = name.map fold ∧
    isEdge front.getLast? (word ++ back).head? ∧ isEdge (front ++ word).getLast? back.head?

theorem length_eq_of_fold (h : word.map fold = name.map fold) : word.length = name.length := by
  simpa using congrArg List.length h

theorem readName?_eq_some :
    readName? before name s = some (last, rest) ↔
      ∃ word, s = word ++ rest ∧ word.map fold = name.map fold ∧ last = lastOf before word := by
  induction name generalizing before s with
  | nil =>
      rw [readName?, Option.some.injEq, Prod.mk.injEq]
      constructor
      · rintro ⟨rfl, rfl⟩
        exact ⟨[], rfl, rfl, rfl⟩
      · rintro ⟨word, rfl, hword, rfl⟩
        obtain rfl := List.map_eq_nil_iff.1 hword
        exact ⟨rfl, rfl⟩
  | cons a name ih =>
      cases s with
      | nil =>
          rw [readName?]
          constructor
          · intro h
            cases h
          · rintro ⟨word, hs, hword, -⟩
            obtain ⟨rfl, -⟩ := List.append_eq_nil_iff.1 hs.symm
            cases hword
      | cons b s =>
          rw [readName?]
          by_cases hab : sameLetter a b
          · rw [if_pos hab, ih]
            have hfold : fold a = fold b := eq_of_beq hab
            constructor
            · rintro ⟨word, rfl, hword, rfl⟩
              refine ⟨b :: word, rfl, ?_, (lastOf_cons before b word).symm⟩
              rw [List.map_cons, List.map_cons, hword, hfold]
            · rintro ⟨word, hs, hword, rfl⟩
              cases word with
              | nil => cases hword
              | cons c word =>
                  obtain ⟨rfl, rfl⟩ := List.cons.inj hs
                  exact ⟨word, rfl, (List.cons.inj hword).2, lastOf_cons before _ _⟩
          · rw [if_neg hab]
            constructor
            · intro h
              cases h
            · rintro ⟨word, hs, hword, -⟩
              cases word with
              | nil => cases hword
              | cons c word =>
                  obtain ⟨rfl, -⟩ := List.cons.inj hs
                  exact absurd (beq_iff_eq.2 (List.cons.inj hword).1.symm) hab

theorem behind?_of_isEdge (hstart : isEdge before s.head?) :
    behind? name before s = (readName? before name s).bind fun found =>
      if isEdge found.1 found.2.head? then some found.2 else none := by
  rw [behind?, hstart]
  cases readName? before name s with
  | none => rfl
  | some found =>
      show ((guard (isEdge found.1 found.2.head? = true) : Option Unit) >>=
          fun _ => some found.2) = _
      rw [Option.bind_some]
      by_cases hend : isEdge found.1 found.2.head?
      · have hguard : (guard (isEdge found.1 found.2.head? = true) : Option Unit) = some () :=
          if_pos hend
        rw [hguard, if_pos hend]
        rfl
      · have hguard : (guard (isEdge found.1 found.2.head? = true) : Option Unit) = none :=
          if_neg hend
        rw [hguard, if_neg hend]
        rfl

theorem behind?_of_not_isEdge (hstart : ¬isEdge before s.head?) : behind? name before s = none := by
  rw [behind?, Bool.eq_false_iff.2 hstart]
  rfl

theorem behind?_eq_some :
    behind? name before s = some rest ↔
      ∃ word, s = word ++ rest ∧ word.map fold = name.map fold ∧ isEdge before s.head? ∧
        isEdge (lastOf before word) rest.head? := by
  by_cases hstart : isEdge before s.head?
  · rw [behind?_of_isEdge hstart]
    constructor
    · intro h
      obtain ⟨found, hread, hfound⟩ := Option.bind_eq_some_iff.1 h
      obtain ⟨word, hs, hword, hlast⟩ := readName?_eq_some.1 hread
      split at hfound
      · rename_i hend
        obtain rfl := Option.some.inj hfound
        exact ⟨word, hs, hword, hstart, hlast ▸ hend⟩
      · cases hfound
    · rintro ⟨word, hs, hword, -, hend⟩
      rw [readName?_eq_some.2 ⟨word, hs, hword, rfl⟩, Option.bind_some, if_pos hend]
  · rw [behind?_of_not_isEdge hstart]
    constructor
    · intro h
      cases h
    · rintro ⟨word, -, -, hs, -⟩
      exact absurd hs hstart

theorem suffix_of_behind? (h : behind? name before s = some rest) : rest <:+ s := by
  obtain ⟨word, rfl, -⟩ := behind?_eq_some.1 h
  exact List.suffix_append word rest

theorem suffix_of_mem_occurrencesFrom {skip : Nat} (h : rest ∈ occurrencesFrom name before skip s) :
    rest <:+ s := by
  induction s generalizing before skip with
  | nil =>
      rw [occurrencesFrom] at h
      cases h
  | cons c s ih =>
      cases skip with
      | succ skip =>
          rw [occurrencesFrom] at h
          exact (ih h).trans (List.suffix_cons c s)
      | zero =>
          rw [occurrencesFrom] at h
          cases hbehind : behind? name before (c :: s) with
          | none =>
              rw [hbehind] at h
              exact (ih h).trans (List.suffix_cons c s)
          | some found =>
              rw [hbehind] at h
              rcases List.mem_cons.1 h with rfl | h
              · exact suffix_of_behind? hbehind
              · exact (ih h).trans (List.suffix_cons c s)

/-- The search from left to right finds something if there is something to be found. -/
theorem occurrencesFrom_ne_nil (hname : name ≠ []) :
    occurrencesFrom name before 0 s ≠ [] ↔
      ∃ front back, s = front ++ back ∧ (behind? name (lastOf before front) back).isSome := by
  have hnil (before : Option Char) : behind? name before [] = none := by
    cases hbehind : behind? name before [] with
    | none => rfl
    | some rest =>
        obtain ⟨word, hs, hword, -⟩ := behind?_eq_some.1 hbehind
        obtain ⟨rfl, -⟩ := List.append_eq_nil_iff.1 hs.symm
        exact absurd (List.map_eq_nil_iff.1 hword.symm) hname
  induction s generalizing before with
  | nil =>
      rw [occurrencesFrom]
      constructor
      · intro h
        exact absurd rfl h
      · rintro ⟨front, back, hs, hbehind⟩
        obtain ⟨rfl, rfl⟩ := List.append_eq_nil_iff.1 hs.symm
        rw [hnil] at hbehind
        cases hbehind
  | cons c s ih =>
      rw [occurrencesFrom]
      cases hbehind : behind? name before (c :: s) with
      | some rest =>
          -- one find is enough, whatever the search skips behind it
          refine ⟨fun _ => ⟨[], c :: s, rfl, ?_⟩, fun _ => List.cons_ne_nil _ _⟩
          rw [lastOf, List.getLast?_nil, Option.none_or, hbehind]
          rfl
      | none =>
          refine Iff.trans ih ⟨?_, ?_⟩
          · rintro ⟨front, back, rfl, hfound⟩
            refine ⟨c :: front, back, rfl, ?_⟩
            rw [lastOf_cons]
            exact hfound
          · rintro ⟨front, back, hs, hfound⟩
            cases front with
            | nil =>
                rw [List.nil_append] at hs
                rw [← hs, lastOf, List.getLast?_nil, Option.none_or, hbehind] at hfound
                cases hfound
            | cons d front =>
                obtain ⟨rfl, rfl⟩ := List.cons.inj hs
                rw [lastOf_cons] at hfound
                exact ⟨front, back, rfl, hfound⟩

theorem occurrences_ne_nil (hname : name ≠ []) : occurrences name text ≠ [] ↔ Occurs name text := by
  rw [occurrences, occurrencesFrom_ne_nil hname]
  have hlast (s : List Char) : lastOf none s = s.getLast? := Option.or_none
  constructor
  · rintro ⟨front, s, rfl, hfound⟩
    obtain ⟨back, hback⟩ := Option.isSome_iff_exists.1 hfound
    obtain ⟨word, rfl, hword, hstart, hend⟩ := behind?_eq_some.1 hback
    refine ⟨front, word, back, (List.append_assoc _ _ _).symm, hword, ?_, ?_⟩
    · rwa [hlast] at hstart
    · rwa [← lastOf_append, hlast] at hend
  · rintro ⟨front, word, back, rfl, hword, hstart, hend⟩
    refine ⟨front, word ++ back, List.append_assoc _ _ _, ?_⟩
    have hbehind : behind? name (lastOf none front) (word ++ back) = some back := by
      refine behind?_eq_some.2 ⟨word, rfl, hword, ?_, ?_⟩
      · rwa [hlast]
      · rwa [← lastOf_append, hlast]
    rw [hbehind]
    rfl

/-! ### The fragments behind the labels -/

theorem suffix_of_mem_fragments {names : List (List Char)} (h : rest ∈ fragments text names) :
    rest <:+ text := by
  obtain ⟨name, -, hrest⟩ := List.mem_flatMap.1 h
  exact suffix_of_mem_occurrencesFrom hrest

theorem fragments_ne_nil {names : List (List Char)} :
    fragments text names ≠ [] ↔ ∃ name ∈ clean names, Occurs name text := by
  have hne (name : List Char) (hname : name ∈ clean names) : name ≠ [] := by
    intro hnil
    have hfilter := (List.mem_filter.1 hname).2
    rw [hnil] at hfilter
    cases hfilter
  constructor
  · intro h
    obtain ⟨rest, hrest⟩ := List.exists_mem_of_ne_nil _ h
    obtain ⟨name, hname, hrest⟩ := List.mem_flatMap.1 hrest
    exact ⟨name, hname, (occurrences_ne_nil (hne name hname)).1 (List.ne_nil_of_mem hrest)⟩
  · rintro ⟨name, hname, hocc⟩
    obtain ⟨rest, hrest⟩ :=
      List.exists_mem_of_ne_nil _ ((occurrences_ne_nil (hne name hname)).2 hocc)
    exact List.ne_nil_of_mem (List.mem_flatMap.2 ⟨name, hname, hrest⟩)

section TextOrder

variable {left : Nat} {fragment : List Char} {placed : List (Nat × List Char)}
  {e : Nat × List Char} {found : List (List Char)}

theorem mem_placeByLength (h : e ∈ placeByLength left fragment placed) :
    e = (left, fragment) ∨ e ∈ placed := by
  induction placed with
  | nil => exact .inl (List.mem_singleton.1 h)
  | cons f rest ih =>
      rw [placeByLength] at h
      split at h
      · exact List.mem_cons.1 h
      · split at h
        · exact .inr h
        · rcases List.mem_cons.1 h with rfl | h
          · exact .inr List.mem_cons_self
          · exact (ih h).imp_right (List.mem_cons_of_mem f)

theorem mem_placeByLength_of_mem (h : e ∈ placed) : e ∈ placeByLength left fragment placed := by
  induction placed with
  | nil => cases h
  | cons f rest ih =>
      rw [placeByLength]
      split
      · exact List.mem_cons_of_mem _ h
      · split
        · exact h
        · rcases List.mem_cons.1 h with rfl | h
          · exact List.mem_cons_self
          · exact List.mem_cons_of_mem f (ih h)

/-- A fragment is only left out for another one at its place. -/
theorem exists_mem_placeByLength (left : Nat) (fragment : List Char)
    (placed : List (Nat × List Char)) : ∃ e ∈ placeByLength left fragment placed, e.1 = left := by
  induction placed with
  | nil => exact ⟨(left, fragment), List.mem_cons_self, rfl⟩
  | cons f rest ih =>
      rw [placeByLength]
      split
      · exact ⟨(left, fragment), List.mem_cons_self, rfl⟩
      · split
        · rename_i heq
          exact ⟨f, List.mem_cons_self, heq⟩
        · obtain ⟨e, he, hleft⟩ := ih
          exact ⟨e, List.mem_cons_of_mem f he, hleft⟩

def placeAll (placed : List (Nat × List Char)) (found : List (List Char)) :
    List (Nat × List Char) :=
  found.foldl (fun placed f => placeByLength f.length f placed) placed

theorem mem_placeAll (h : e ∈ placeAll placed found) :
    e ∈ placed ∨ ∃ f ∈ found, e = (f.length, f) := by
  induction found generalizing placed with
  | nil => exact .inl h
  | cons f found ih =>
      rcases ih h with h | ⟨g, hg, rfl⟩
      · rcases mem_placeByLength h with rfl | h
        · exact .inr ⟨f, List.mem_cons_self, rfl⟩
        · exact .inl h
      · exact .inr ⟨g, List.mem_cons_of_mem f hg, rfl⟩

theorem mem_placeAll_of_mem (found : List (List Char)) (h : e ∈ placed) :
    e ∈ placeAll placed found := by
  induction found generalizing placed with
  | nil => exact h
  | cons f found ih => exact ih (mem_placeByLength_of_mem h)

theorem exists_mem_placeAll (placed : List (Nat × List Char)) {f : List Char} (h : f ∈ found) :
    ∃ e ∈ placeAll placed found, e.1 = f.length := by
  induction found generalizing placed with
  | nil => cases h
  | cons g found ih =>
      rcases List.mem_cons.1 h with rfl | h
      · obtain ⟨e, he, hlength⟩ := exists_mem_placeByLength f.length f placed
        exact ⟨e, mem_placeAll_of_mem found he, hlength⟩
      · exact ih _ h

/-- No fragment of a text is lost when they are put in order,
since two at one place are the same. -/
theorem mem_inTextOrder (hfound : ∀ f ∈ found, f <:+ text) {f : List Char} :
    f ∈ inTextOrder found ↔ f ∈ found := by
  constructor
  · intro h
    obtain ⟨e, he, rfl⟩ := List.mem_map.1 h
    rcases mem_placeAll he with he | ⟨g, hg, rfl⟩
    · cases he
    · exact hg
  · intro h
    obtain ⟨e, he, hlength⟩ := exists_mem_placeAll [] h
    rcases mem_placeAll he with hnil | ⟨g, hg, rfl⟩
    · cases hnil
    · -- what stands at the place of `f` is as long as `f`, and both end the text
      have hsame : g.length = f.length := hlength
      have hsuffix :=
        List.suffix_of_suffix_length_le (hfound g hg) (hfound f h) (Nat.le_of_eq hsame)
      obtain rfl := hsuffix.eq_of_length hsame
      exact List.mem_map.2 ⟨_, he, rfl⟩

end TextOrder

/-- Labels occur in the text, none with a value, and the text itself reads as a fragment. -/
structure IsStray (text : List Char) (names : List (List Char)) : Prop where
  occurs : fragments text names ≠ []
  valueless : ∀ fragment ∈ fragments text names, Fragment.read fragment = none
  digit : startsWithDigit text
  read : (Fragment.read text).isSome

end Label

namespace Formula

open Label

variable {text : List Char} {names : List (List Char)}

theorem mem_values {f : Formula} :
    f ∈ (inTextOrder (fragments text names)).filterMap Fragment.read ↔
      ∃ fragment ∈ fragments text names, Fragment.read fragment = some f := by
  rw [List.mem_filterMap]
  have hmem (fragment : List Char) :
      fragment ∈ inTextOrder (fragments text names) ↔ fragment ∈ fragments text names :=
    mem_inTextOrder fun _ => suffix_of_mem_fragments
  constructor
  · rintro ⟨fragment, hfragment, hread⟩
    exact ⟨fragment, (hmem fragment).1 hfragment, hread⟩
  · rintro ⟨fragment, hfragment, hread⟩
    exact ⟨fragment, (hmem fragment).2 hfragment, hread⟩

theorem findAll_of_mem {f : Formula} {fragment : List Char}
    (hfragment : fragment ∈ fragments text names) (hread : Fragment.read fragment = some f) :
    findAll text names = (inTextOrder (fragments text names)).filterMap Fragment.read := by
  have hmem := mem_values.2 ⟨fragment, hfragment, hread⟩
  rw [findAll]
  cases hfound : (inTextOrder (fragments text names)).filterMap Fragment.read with
  | nil =>
      rw [hfound] at hmem
      cases hmem
  | cons => rfl

theorem findAll_of_valueless
    (hnone : ∀ fragment ∈ fragments text names, Fragment.read fragment = none) :
    findAll text names =
      if !names.isEmpty && startsWithDigit text then (Fragment.read text).toList else [] := by
  have hnil : (inTextOrder (fragments text names)).filterMap Fragment.read = [] := by
    rw [List.eq_nil_iff_forall_not_mem]
    intro f hf
    obtain ⟨fragment, hfragment, hread⟩ := mem_values.1 hf
    rw [hnone fragment hfragment] at hread
    cases hread
  rw [findAll, hnil]

theorem find?_of_ne_nil (h : fragments text names ≠ []) :
    find? text names = (fragments text names).findSome? Fragment.read := by
  rw [find?]
  cases hfound : fragments text names with
  | nil => exact absurd hfound h
  | cons => rfl

theorem find?_of_eq_nil (h : fragments text names = []) :
    find? text names =
      if !names.isEmpty && startsWithDigit text then Fragment.read text else none := by
  rw [find?, h]

theorem names_ne_nil (h : fragments text names ≠ []) : names.isEmpty = false := by
  cases names with
  | nil => exact absurd rfl h
  | cons => rfl

theorem mem_findAll_of_find? {f : Formula} (h : find? text names = some f) :
    f ∈ findAll text names := by
  by_cases hoccurs : fragments text names = []
  · have hnone : ∀ fragment ∈ fragments text names, Fragment.read fragment = none := by
      rw [hoccurs]
      exact nofun
    rw [find?_of_eq_nil hoccurs] at h
    rw [findAll_of_valueless hnone]
    split at h
    · rename_i hdigit
      rw [if_pos hdigit, h]
      exact List.mem_singleton_self f
    · cases h
  · rw [find?_of_ne_nil hoccurs] at h
    obtain ⟨fragment, hfragment, hread⟩ := List.exists_of_findSome?_eq_some h
    rw [findAll_of_mem hfragment hread]
    exact mem_values.2 ⟨fragment, hfragment, hread⟩

theorem find?_of_isStray (h : IsStray text names) : find? text names = none := by
  rw [find?_of_ne_nil h.occurs, List.findSome?_eq_none_iff]
  exact h.valueless

/-- All formulas of a text in which labels occur without a value are the formula of the text. -/
theorem findAll_of_isStray (h : IsStray text names) :
    findAll text names = (Fragment.read text).toList := by
  rw [findAll_of_valueless h.valueless, names_ne_nil h.occurs, h.digit]
  rfl

theorem find?_eq_none_iff_of_not_isStray (h : ¬IsStray text names) :
    find? text names = none ↔ findAll text names = [] := by
  by_cases hvalue : ∃ fragment ∈ fragments text names, (Fragment.read fragment).isSome
  · obtain ⟨fragment, hfragment, hread⟩ := hvalue
    obtain ⟨f, hf⟩ := Option.isSome_iff_exists.1 hread
    have hmem := mem_values.2 ⟨fragment, hfragment, hf⟩
    rw [← findAll_of_mem hfragment hf] at hmem
    constructor
    · intro hnone
      rw [find?_of_ne_nil (List.ne_nil_of_mem hfragment), List.findSome?_eq_none_iff] at hnone
      rw [hnone fragment hfragment] at hf
      cases hf
    · intro hnil
      rw [hnil] at hmem
      cases hmem
  · have hnone : ∀ fragment ∈ fragments text names, Fragment.read fragment = none := by
      intro fragment hfragment
      cases hread : Fragment.read fragment with
      | none => rfl
      | some f => exact absurd ⟨fragment, hfragment, by rw [hread]; rfl⟩ hvalue
    rw [findAll_of_valueless hnone]
    by_cases hoccurs : fragments text names = []
    · -- no label occurs, and both searches fall back on the text
      rw [find?_of_eq_nil hoccurs]
      split
      · exact Option.toList_eq_nil_iff.symm
      · exact ⟨fun _ => rfl, fun _ => rfl⟩
    · have hfirst : find? text names = none := by
        rw [find?_of_ne_nil hoccurs, List.findSome?_eq_none_iff]
        exact hnone
      refine ⟨fun _ => ?_, fun _ => hfirst⟩
      rw [names_ne_nil hoccurs, Bool.not_false, Bool.true_and]
      split
      · rename_i hdigit
        cases hread : Fragment.read text with
        | none => rfl
        | some f => exact absurd ⟨hoccurs, hnone, hdigit, by rw [hread]; rfl⟩ h
      · rfl

/-- The two searches agree on every text, but for one in which labels occur without a value and that
reads as a fragment. -/
theorem find?_agrees_findAll_iff (text : List Char) (names : List (List Char)) :
    (∀ f, find? text names = some f → f ∈ findAll text names) ∧
      ((find? text names = none ↔ findAll text names = []) ↔ ¬IsStray text names) := by
  refine ⟨fun f => mem_findAll_of_find?, fun hagree hstray => ?_, find?_eq_none_iff_of_not_isStray⟩
  have hnil := hagree.1 (find?_of_isStray hstray)
  rw [findAll_of_isStray hstray, Option.toList_eq_nil_iff] at hnil
  have hread := hstray.read
  rw [hnil] at hread
  cases hread

/-- A number that belongs to something else is taken for a value of a label that has none. -/
theorem findAll_stray_number :
    find? "30 armor then Health".toList ["Health".toList] = none ∧
      findAll "30 armor then Health".toList ["Health".toList] ≠ [] :=
  ⟨Option.isNone_iff_eq_none.1 (by decide +kernel), List.isEmpty_eq_false_iff.1 (by decide +kernel)⟩

end Formula

end StatAlmanac
