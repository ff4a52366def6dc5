import StatAlmanac.Page.Stats
import StatAlmanac.Proofs.Formula.Label
import StatAlmanac.Proofs.Table

/-!
Which stats a page gets. A stat with a label on the page has the formulas behind
its labels. But a page that starts with a digit may read as a fragment, and then
every stat without a label gets the formula of that fragment.
-/

namespace StatAlmanac.Page

open Label

variable {k : Kind} {stat : String} {text : List Char} {forms : List Formula}

def IsLabelled (k : Kind) (stat : String) (text : List Char) : Prop :=
  ∃ labels, (stat, labels) ∈ k.labels ∧ ∃ label ∈ labels, Occurs label.toList text

theorem labels_distinct (k : Kind) : k.labels.Pairwise (·.1 ≠ ·.1) := by
  cases k <;> decide

theorem isLabelled_iff {labels : List String} (he : (stat, labels) ∈ k.labels) :
    IsLabelled k stat text ↔ ∃ label ∈ labels, Occurs label.toList text := by
  constructor
  · rintro ⟨others, hothers, hocc⟩
    have hlookup := (Table.mem_iff_lookup (labels_distinct k) stat others).1 hothers
    rw [(Table.mem_iff_lookup (labels_distinct k) stat labels).1 he] at hlookup
    rw [Option.some.inj hlookup]
    exact hocc
  · intro hocc
    exact ⟨labels, he, hocc⟩

theorem clean_labels (k : Kind) :
    ∀ e ∈ k.labels, clean (e.2.map String.toList) = e.2.map String.toList ∧ e.2 ≠ [] := by
  cases k <;> decide +kernel

def statForms? (text : List Char) (e : String × List String) : Option (String × List Formula) :=
  match Formula.findAll text (e.2.map String.toList) with
  | [] => none
  | forms => some (e.1, forms)

theorem statForms?_eq_some {e : String × List String} {found : String × List Formula} :
    statForms? text e = some found ↔
      found = (e.1, Formula.findAll text (e.2.map String.toList)) ∧ found.2 ≠ [] := by
  rw [statForms?]
  cases hforms : Formula.findAll text (e.2.map String.toList) with
  | nil =>
      constructor
      · intro h
        cases h
      · rintro ⟨rfl, hne⟩
        exact absurd rfl hne
  | cons f forms =>
      rw [Option.some.injEq]
      constructor
      · rintro rfl
        exact ⟨rfl, List.cons_ne_nil f forms⟩
      · rintro ⟨rfl, -⟩
        rfl

theorem find?_statFormulas (k : Kind) (text : List Char) (stat : String) (forms : List Formula) :
    (statFormulas k text).find? stat = some forms ↔
      forms ≠ [] ∧ ∃ labels, (stat, labels) ∈ k.labels ∧
        Formula.findAll text (labels.map String.toList) = forms := by
  -- a stat is in the list of its kind once, so no entry of the table covers another
  have hdistinct : (k.labels.filterMap (statForms? text)).Pairwise (·.1 ≠ ·.1) := by
    refine (labels_distinct k).filterMap _ ?_
    intro a b hab a' ha b' hb
    rw [(statForms?_eq_some.1 ha).1, (statForms?_eq_some.1 hb).1]
    exact hab
  refine (Table.find?_ofList hdistinct stat forms).trans ?_
  rw [List.mem_filterMap]
  constructor
  · rintro ⟨⟨name, labels⟩, he, hentry⟩
    obtain ⟨heq, hne⟩ := statForms?_eq_some.1 hentry
    obtain ⟨rfl, rfl⟩ := Prod.mk.inj heq
    exact ⟨hne, labels, he, rfl⟩
  · rintro ⟨hne, labels, he, rfl⟩
    exact ⟨(stat, labels), he, statForms?_eq_some.2 ⟨rfl, hne⟩⟩

theorem contains_statFormulas :
    (statFormulas k text).contains stat ↔
      ∃ labels, (stat, labels) ∈ k.labels ∧
        Formula.findAll text (labels.map String.toList) ≠ [] := by
  rw [Table.contains, Option.isSome_iff_exists]
  constructor
  · rintro ⟨forms, hforms⟩
    obtain ⟨hne, labels, he, rfl⟩ := (find?_statFormulas k text stat forms).1 hforms
    exact ⟨labels, he, hne⟩
  · rintro ⟨labels, he, hne⟩
    exact ⟨_, (find?_statFormulas k text stat _).2 ⟨hne, labels, he, rfl⟩⟩

theorem fragments_labels {labels : List String} (he : (stat, labels) ∈ k.labels) :
    fragments text (labels.map String.toList) ≠ [] ↔ IsLabelled k stat text := by
  rw [fragments_ne_nil, (clean_labels k _ he).1, isLabelled_iff he]
  constructor
  · rintro ⟨name, hname, hocc⟩
    obtain ⟨label, hlabel, rfl⟩ := List.mem_map.1 hname
    exact ⟨label, hlabel, hocc⟩
  · rintro ⟨label, hlabel, hocc⟩
    exact ⟨_, List.mem_map.2 ⟨label, hlabel, rfl⟩, hocc⟩

/-- A stat without a label on the page gets the formula of the page, if there is one. -/
theorem findAll_of_not_isLabelled {labels : List String} (he : (stat, labels) ∈ k.labels)
    (hnone : ¬IsLabelled k stat text) :
    Formula.findAll text (labels.map String.toList) =
      if startsWithDigit text then (Fragment.read text).toList else [] := by
  have hfragments : fragments text (labels.map String.toList) = [] := by
    by_cases h : fragments text (labels.map String.toList) = []
    · exact h
    · exact absurd ((fragments_labels he).1 h) hnone
  have hvalueless : ∀ fragment ∈ fragments text (labels.map String.toList),
      Fragment.read fragment = none := by
    rw [hfragments]
    exact nofun
  have hnames : (labels.map String.toList).isEmpty = false := by
    have hne := (clean_labels k _ he).2
    cases labels with
    | nil => exact absurd rfl hne
    | cons => rfl
  rw [Formula.findAll_of_valueless hvalueless, hnames]
  rfl

/-- A page has only stats that are labelled on it, unless it starts with a digit, reads as a
fragment, and lacks the labels of some stat. -/
theorem stats_labelled_iff (k : Kind) (body : Bytes) :
    (∀ stat, (statFormulas k (documentText body)).contains stat →
      IsLabelled k stat (documentText body)) ↔
    ¬(startsWithDigit (documentText body) ∧ (Fragment.read (documentText body)).isSome ∧
      ∃ e ∈ k.labels, ¬IsLabelled k e.1 (documentText body)) := by
  generalize documentText body = text
  constructor
  · rintro hall ⟨hdigit, hread, ⟨stat, labels⟩, he, hnone⟩
    obtain ⟨f, hf⟩ := Option.isSome_iff_exists.1 hread
    refine hnone (hall stat (contains_statFormulas.2 ⟨labels, he, ?_⟩))
    rw [findAll_of_not_isLabelled he hnone, if_pos hdigit, hf]
    exact List.cons_ne_nil f []
  · intro hgood stat hcontains
    obtain ⟨labels, he, hne⟩ := contains_statFormulas.1 hcontains
    apply Classical.byContradiction
    intro hnone
    rw [findAll_of_not_isLabelled he hnone] at hne
    split at hne
    · rename_i hdigit
      cases hread : Fragment.read text with
      | none =>
          rw [hread] at hne
          exact hne rfl
      | some f => exact hgood ⟨hdigit, by rw [hread]; rfl, (stat, labels), he, hnone⟩
    · exact hne rfl

/-- A number of minutes becomes the damage of a rune. -/
theorem damage_of_minutes :
    let text := documentText (Text.Utf8.encode "<p>25 minutes</p>".toList)
    (statFormulas .rune text).contains "damage" ∧ ¬IsLabelled .rune "damage" text := by
  have hnone : ∀ label ∈ ["Damage", "Bonus damage"], label.toList ≠ [] ∧
      occurrences label.toList
        (documentText (Text.Utf8.encode "<p>25 minutes</p>".toList)) = [] := by
    decide +kernel
  refine ⟨by decide +kernel, ?_⟩
  rw [isLabelled_iff List.mem_cons_self]
  rintro ⟨label, hlabel, hocc⟩
  obtain ⟨hname, hempty⟩ := hnone label hlabel
  exact (occurrences_ne_nil hname).2 hocc hempty

end StatAlmanac.Page
