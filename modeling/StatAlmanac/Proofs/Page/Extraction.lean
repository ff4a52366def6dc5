import StatAlmanac.Proofs.Formula.Lines
import StatAlmanac.Proofs.Page.Rows
import StatAlmanac.Proofs.Page.Stats

/-!
Extraction undoes rendering. Of the labels on a page that is a table, those of a
stat stand at the ends of the label lines of its rows; where a label stands
inside another one, what is behind it does not start with a number. So the
formulas of a stat are those of its rows, in their order.
-/

namespace StatAlmanac.Page

open Text Fragment Label

variable {k : Kind}

/-! ### Labels among labels and values -/

/-- What keeps a label of a stat apart from all else on a page that is a table. It fits on a line,
and no numeral or mark of a value holds it. A value in front of it ends there. Among labels it
stands at the end of those of its own stat only; behind it there is no number in any other label. -/
@[mk_iff]
structure IsApart (k : Kind) (own : List String) (label : String) : Prop where
  isInline : IsInline label.toList
  letter : label.toList.head?.any fun a => !isNumeralChar (fold a)
  passes : ∀ s ∈ Value.marks, passes label.toList s
  first : label.toList.head?.any fun a => !isBlank a && !isNumeralChar a && a != '%' && a != '('
  word : clashes "max".toList label.toList ∧ clashes "capped".toList label.toList
  itself : [] ∈ occurrences label.toList label.toList
  others : ∀ d ∈ k.labels, ∀ l ∈ d.2, ∀ o ∈ occurrences label.toList l.toList,
    o = [] ∧ l ∈ own ∨ (o.dropWhile isLead).head?.any fun c => !isDigit c

instance (k : Kind) (own : List String) (label : String) : Decidable (IsApart k own label) :=
  decidable_of_iff' _ (isApart_iff k own label)

theorem isApart_labels (k : Kind) : ∀ e ∈ k.labels, ∀ l ∈ e.2, IsApart k e.2 l := by
  cases k <;> decide +kernel

theorem Row.isApart (r : Row k) : ∃ own, IsApart k own r.label := by
  obtain ⟨e, he, hlabel⟩ := r.known
  exact ⟨e.2, isApart_labels k e he _ hlabel⟩

theorem Row.isInline (r : Row k) : IsInline r.label.toList := by
  obtain ⟨own, hapart⟩ := r.isApart
  exact hapart.isInline

theorem occurrences_value {name : List Char}
    (hletter : name.head?.any fun a => !isNumeralChar (fold a))
    (hmarks : ∀ s ∈ Value.marks, passes name s) (v : Value) : occurrences name v.text = [] := by
  cases name with
  | nil => cases hletter
  | cons a name =>
      have ha : isNumeralChar (fold a) = false := by simpa using hletter
      refine occurrences_of_passes
        (v.text_induction (fun s t => passes_append) (fun n => ?_) hmarks)
      exact passes_of_letter name fun c hc =>
        sameLetter_isNumeralChar ha (n.isNumeralChar_of_mem hc)

/-! ### The lines of a page -/

def behind : List (Row k) → List Char
  | [] => []
  | r :: rows => '\n' :: flatText (r :: rows)

theorem flatText_cons (r : Row k) (rows : List (Row k)) :
    flatText (r :: rows) = r.label.toList ++ '\n' :: (r.value.text ++ behind rows) := by
  cases rows with
  | nil => simp [flatText, behind]
  | cons d rows => simp [flatText, behind, List.intercalate_cons_cons]

def valued (stat : String) : List (Row k) → List (List Char)
  | [] => []
  | r :: rows =>
      if r.isOf stat then ('\n' :: (r.value.text ++ behind rows)) :: valued stat rows
      else valued stat rows

theorem occurrences_rows {name : List Char} (hinline : IsInline name)
    (hvalue : ∀ v : Value, occurrences name v.text = []) (r : Row k) (rows : List (Row k)) :
    occurrences name (flatText (r :: rows)) =
      (occurrences name r.label.toList).map (· ++ '\n' :: (r.value.text ++ behind rows)) ++
        occurrences name (flatText rows) := by
  have hbehind : occurrences name (r.value.text ++ behind rows) =
      occurrences name (flatText rows) := by
    cases rows with
    | nil =>
        rw [behind, List.append_nil, hvalue]
        rfl
    | cons d rows =>
        rw [behind, occurrences_line hinline, hvalue]
        rfl
  rw [flatText_cons, occurrences_line hinline, hbehind]

/-! ### Reading what is behind a label -/

theorem endsValue_behind (rows : List (Row k)) : EndsValue (behind rows) := by
  cases rows with
  | nil => exact ⟨⟨by rintro c ⟨⟩, rfl, rfl⟩, rfl⟩
  | cons r rows =>
      obtain ⟨own, hapart⟩ := r.isApart
      have hfirst := hapart.first
      obtain ⟨hmax, hcapped⟩ := hapart.word
      rw [behind, flatText_cons]
      generalize r.label.toList = label at hfirst hmax hcapped
      cases label with
      | nil => cases hfirst
      | cons a label =>
          obtain ⟨⟨⟨hblank, -⟩, hpercent⟩, hparen⟩ :
              ((isBlank a = false ∧ isNumeralChar a = false) ∧ (a == '%') = false) ∧
                (a == '(') = false := by simpa using hfirst
          generalize '\n' :: (r.value.text ++ behind rows) = more
          have hsolid : trimStart ('\n' :: (a :: label ++ more)) = a :: (label ++ more) :=
            trimStart_of_solid hblank _
          have hword : capWord? (a :: label ++ more) = none := by
            rw [capWord?, dropName?_of_clashes (clashes_append hmax more)]
            simp only [cappedAt?, dropName?_of_clashes (clashes_append hcapped more)]
            rfl
          refine ⟨⟨head?_not_isNumeralChar rfl _, solid?_eq_none hsolid hpercent, ?_⟩, ?_⟩
          · rw [opening?, solid?_eq_none hsolid hparen]
            rfl
          · rw [capNumeral?, skipMark_of_solid hsolid hblank hparen]
            refine Option.bind_eq_none_iff.2 fun s hs => ?_
            exact absurd (hs.symm.trans hword) (Option.some_ne_none s)

theorem read_value (r : Row k) (rows : List (Row k)) :
    read ('\n' :: (r.value.text ++ behind rows)) = some r.value.formula :=
  r.value.read_text (endsValue_behind rows)

theorem read_eq_none {o : List Char} (h : (o.dropWhile isLead).head?.any fun c => !isDigit c)
    (more : List Char) : read (o ++ more) = none := by
  cases hdrop : o.dropWhile isLead with
  | nil =>
      rw [hdrop] at h
      cases h
  | cons c t =>
      rw [hdrop] at h
      have hc : ¬isDigit c := by simpa using h
      rw [read_eq_map, List.dropWhile_append, hdrop]
      show Option.map _ ((numeral? (c :: (t ++ more))).bind _) = none
      rw [numeral?_of_not_isDigit hc]
      rfl

theorem filterMap_read_valued (stat : String) (rows : List (Row k)) :
    (valued stat rows).filterMap read = formulasOf stat rows := by
  induction rows with
  | nil => rfl
  | cons r rows ih =>
      rw [valued, formulasOf, List.filter_cons]
      split
      · rw [List.filterMap_cons, read_value, List.map_cons, ih]
        rfl
      · exact ih

/-! ### The labels of a stat -/

theorem length_flatText_le (rows : List (Row k)) :
    (flatText rows).length ≤ (behind rows).length := by
  cases rows with
  | nil => exact Nat.le_refl _
  | cons r rows => exact Nat.le_succ _

theorem length_of_mem_valued {stat : String} {rows : List (Row k)} {f : List Char}
    (h : f ∈ valued stat rows) : f.length < (flatText rows).length := by
  induction rows with
  | nil => cases h
  | cons r rows ih =>
      have hlabel := List.length_pos_iff.2 r.isInline.ne_nil
      have hbehind := length_flatText_le rows
      have hrow (h : f ∈ valued stat rows) : f.length < (flatText (r :: rows)).length := by
        have hlt := ih h
        rw [flatText_cons]
        simp only [List.length_append, List.length_cons]
        omega
      rw [valued] at h
      split at h
      · rcases List.mem_cons.1 h with rfl | h
        · rw [flatText_cons]
          simp only [List.length_append, List.length_cons]
          omega
        · exact hrow h
      · exact hrow h

theorem pairwise_valued (stat : String) (rows : List (Row k)) :
    (valued stat rows).Pairwise (·.length > ·.length) := by
  induction rows with
  | nil => exact .nil
  | cons r rows ih =>
      rw [valued]
      split
      · refine List.pairwise_cons.2 ⟨fun f hf => ?_, ih⟩
        have hlt := length_of_mem_valued hf
        have hbehind := length_flatText_le rows
        simp only [List.length_append, List.length_cons]
        omega
      · exact ih

section Stat

variable {stat : String} {labels : List String}

theorem Row.isOf_iff (he : (stat, labels) ∈ k.labels) (r : Row k) :
    r.isOf stat ↔ r.label ∈ labels := by
  have hlookup : k.labelsOf? stat = some labels :=
    (Table.mem_iff_lookup (labels_distinct k) stat labels).1 he
  rw [isOf, hlookup, Option.any_some, List.contains_iff_mem]

theorem mem_fragments_labels (he : (stat, labels) ∈ k.labels) (text f : List Char) :
    f ∈ fragments text (labels.map String.toList) ↔
      ∃ name ∈ labels, f ∈ occurrences name.toList text := by
  rw [fragments, (clean_labels k _ he).1, List.mem_flatMap]
  simp only [List.mem_map, exists_exists_and_eq_and]

theorem occurrences_labels_rows (he : (stat, labels) ∈ k.labels) {name : String}
    (hname : name ∈ labels) (r : Row k) (rows : List (Row k)) :
    occurrences name.toList (flatText (r :: rows)) =
      (occurrences name.toList r.label.toList).map (· ++ '\n' :: (r.value.text ++ behind rows)) ++
        occurrences name.toList (flatText rows) := by
  have hapart := isApart_labels k _ he name hname
  exact occurrences_rows hapart.isInline (occurrences_value hapart.letter hapart.passes) r rows

theorem exists_occurrence_of_mem_valued (he : (stat, labels) ∈ k.labels) {rows : List (Row k)}
    {f : List Char} (h : f ∈ valued stat rows) :
    (∃ name ∈ labels, f ∈ occurrences name.toList (flatText rows)) ∧ (read f).isSome := by
  induction rows with
  | nil => cases h
  | cons r rows ih =>
      have hrest (h : f ∈ valued stat rows) :
          (∃ name ∈ labels, f ∈ occurrences name.toList (flatText (r :: rows))) ∧
            (read f).isSome := by
        obtain ⟨⟨name, hname, hf⟩, hread⟩ := ih h
        refine ⟨⟨name, hname, ?_⟩, hread⟩
        rw [occurrences_labels_rows he hname]
        exact List.mem_append_right _ hf
      rw [valued] at h
      split at h
      · rename_i hown
        rcases List.mem_cons.1 h with rfl | h
        · have hname := (r.isOf_iff he).1 hown
          refine ⟨⟨r.label, hname, ?_⟩, by rw [read_value]; rfl⟩
          rw [occurrences_labels_rows he hname]
          exact List.mem_append_left _
            (List.mem_map.2 ⟨[], (isApart_labels k _ he _ hname).itself, rfl⟩)
        · exact hrest h
      · exact hrest h

/-- Where there is a value behind a label of the stat, the label is that of a row. -/
theorem mem_valued_of_mem_occurrences (he : (stat, labels) ∈ k.labels) {name : String}
    (hname : name ∈ labels) {rows : List (Row k)} {f : List Char}
    (hf : f ∈ occurrences name.toList (flatText rows)) (hread : (read f).isSome) :
    f ∈ valued stat rows := by
  induction rows with
  | nil => cases hf
  | cons r rows ih =>
      rw [valued]
      rw [occurrences_labels_rows he hname] at hf
      rcases List.mem_append.1 hf with hf | hf
      · obtain ⟨o, ho, rfl⟩ := List.mem_map.1 hf
        obtain ⟨d, hd, hlabel⟩ := r.known
        have hothers := (isApart_labels k _ he name hname).others
        rcases hothers d hd _ hlabel o ho with ⟨rfl, hmem⟩ | hnone
        · rw [if_pos ((r.isOf_iff he).2 hmem)]
          exact List.mem_cons_self
        · rw [read_eq_none hnone] at hread
          cases hread
      · split
        · exact List.mem_cons_of_mem _ (ih hf)
        · exact ih hf

/-- Of all texts behind the labels of a stat, those with a value are those of its rows. -/
theorem mem_valued (he : (stat, labels) ∈ k.labels) (rows : List (Row k)) (f : List Char) :
    f ∈ valued stat rows ↔
      f ∈ fragments (flatText rows) (labels.map String.toList) ∧ (read f).isSome := by
  rw [mem_fragments_labels he]
  constructor
  · exact exists_occurrence_of_mem_valued he
  · rintro ⟨⟨name, hname, hf⟩, hread⟩
    exact mem_valued_of_mem_occurrences he hname hf hread

theorem startsWithDigit_flatText (rows : List (Row k)) :
    startsWithDigit (flatText rows) = false := by
  cases rows with
  | nil => rfl
  | cons r rows =>
      obtain ⟨own, hapart⟩ := r.isApart
      have hfirst := hapart.first
      rw [flatText_cons]
      generalize r.label.toList = label at hfirst
      cases label with
      | nil => cases hfirst
      | cons a label =>
          obtain ⟨⟨⟨hblank, hnumeral⟩, -⟩, -⟩ :
              ((isBlank a = false ∧ isNumeralChar a = false) ∧ a ≠ '%') ∧ a ≠ '(' := by
            simpa using hfirst
          rw [startsWithDigit, List.cons_append, trimStart_of_solid hblank]
          exact isDigit_eq_false hnumeral

theorem findAll_flatText (he : (stat, labels) ∈ k.labels) (rows : List (Row k)) :
    Formula.findAll (flatText rows) (labels.map String.toList) = formulasOf stat rows := by
  have hmem := mem_valued he rows
  rw [← filterMap_read_valued]
  cases hvalued : valued stat rows with
  | nil =>
      have hnone : ∀ f ∈ fragments (flatText rows) (labels.map String.toList), read f = none := by
        intro f hf
        cases hread : read f with
        | none => rfl
        | some g =>
            have hkept := (hmem f).2 ⟨hf, by rw [hread]; rfl⟩
            rw [hvalued] at hkept
            cases hkept
      rw [Formula.findAll_of_valueless hnone, startsWithDigit_flatText, Bool.and_false]
      rfl
  | cons f more =>
      obtain ⟨hf, hread⟩ := (hmem f).1 (by rw [hvalued]; exact List.mem_cons_self)
      obtain ⟨g, hg⟩ := Option.isSome_iff_exists.1 hread
      have hkept := filter_inTextOrder (p := fun f => (read f).isSome)
        (fun _ => suffix_of_mem_fragments) (pairwise_valued stat rows) hmem
      rw [Formula.findAll_of_mem hf hg, ← hvalued, ← hkept, List.filterMap_filter]
      congr 1
      funext f
      cases read f <;> rfl

end Stat

theorem formulasOf_of_unknown {stat : String} (h : k.labelsOf? stat = none) (rows : List (Row k)) :
    formulasOf stat rows = [] := by
  have hnone : rows.filter (Row.isOf stat) = [] := by
    rw [List.filter_eq_nil_iff]
    intro r _
    rw [Row.isOf, h]
    exact Bool.false_ne_true
  rw [formulasOf, hnone]
  rfl

/-- A page that is a table of labels and values has for each stat the formulas of the rows with its
labels, in the order of the rows, and nothing for the other stats. -/
theorem statFormulas_page (rows : List (Row k)) (stat : String) :
    (statFormulas k (documentText (page rows))).find? stat =
      if (formulasOf stat rows).isEmpty then none else some (formulasOf stat rows) := by
  rw [documentText_page]
  apply Option.ext
  intro forms
  rw [find?_statFormulas]
  constructor
  · rintro ⟨hne, labels, he, hforms⟩
    rw [findAll_flatText he] at hforms
    rw [hforms, if_neg (by simpa using hne)]
  · intro h
    split at h
    · cases h
    · rename_i hne
      obtain rfl := Option.some.inj h
      refine ⟨by simpa using hne, ?_⟩
      cases hlabels : k.labelsOf? stat with
      | none =>
          rw [formulasOf_of_unknown hlabels] at hne
          exact absurd rfl hne
      | some labels =>
          have he := (Table.mem_iff_lookup (labels_distinct k) stat labels).2 hlabels
          exact ⟨labels, he, findAll_flatText he rows⟩

end StatAlmanac.Page
