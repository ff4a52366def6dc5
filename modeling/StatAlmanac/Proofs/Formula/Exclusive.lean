import StatAlmanac.Proofs.Formula.Recognised

/-!
Of the four forms that are tried first, at most one fits a fragment, and where it is a growth
term the bare value does not stand in for it. So the order of these four does not matter, and a
growth term with a numeral that is no number is read as nothing else.
-/

namespace StatAlmanac.Fragment

open Text Text.Reader

variable {s t rest : List Char}

/-- The form has a reading at the front of the text, whatever its numerals are worth. -/
def Form.fits (s : List Char) : Form → Bool
  | .quadratic => (quadraticTerm.first? s).isSome
  | .linear => (linearTerm.first? s).isSome
  | .percentage => (percentValue.first? s).isSome
  | .perLevel => (perLevelTerm.first? s).isSome
  | .bare => (bareValue.first? s).isSome

/-- A growth term is opened behind the bare value. -/
def IsGuarded (s : List Char) : Prop :=
  ∃ value rest, bareValue.first? s = some (value, rest) ∧ (growthOpening.first? rest).isSome

def Marker.term : Marker → Reader (Span × Span)
  | .squared => quadraticTerm
  | .plain => linearTerm
  | .perLevel => perLevelTerm

theorem Marker.term_eq (m : Marker) : m.term = growthTerm m.reader := by
  cases m <;> rfl

/-! ### One look behind the base value -/

/-- The form among those tried first that what stands behind the base value decides on. -/
def leading? (s : List Char) : Option Form := do
  let (_, t) ← numeral? (s.dropWhile isLead)
  match opening? t with
  | some u => do
      let ((_, m), _) ← growth? u
      return m.form
  | none => do
      let _ ← percent? t
      return .percentage

theorem growth?_of_close? {m : Marker} {k : Numeral} (hk : numeral? (trimStart s) = some (k, t))
    (h : m.close? t = some rest) : growth? s = some ((k, m), rest) := by
  rw [Marker.close?, take?_bind_closing?, Option.bind_eq_some_iff] at h
  obtain ⟨⟨g, u⟩, hmarker, hclosing⟩ := h
  rw [Option.ite_none_right_eq_some] at hclosing
  obtain ⟨rfl, hclosing⟩ := hclosing
  simp [growth?, hk, hmarker, hclosing]

theorem Marker.growth?_of_term {m : Marker} {base coefficient : Span}
    (h : m.term.first? s = some ((base, coefficient), rest)) :
    ∃ b t u k, numeral? (s.dropWhile isLead) = some (b, t) ∧ opening? t = some u ∧
      growth? u = some ((k, m), rest) ∧ Span.value? base = b.value? ∧
        Span.value? coefficient = k.value? := by
  simp only [m.term_eq, first?_growthTerm, Option.bind_eq_bind, Option.bind_eq_some_iff] at h
  obtain ⟨⟨b, t⟩, hb, u, hu, ⟨k, v⟩, hk, rest', hclose, hspans⟩ := h
  cases hspans
  exact ⟨b, t, u, k, hb, hu, growth?_of_close? hk hclose, value?_span hb, value?_span hk⟩

theorem opening?_of_percent? (h : percent? s = some rest) : opening? s = none := by
  cases hopening : opening? s with
  | none => rfl
  | some t =>
      rw [percent?_of_opening? hopening] at h
      cases h

theorem leading?_of_fits {form : Form} (hform : form ∈ priority.take 4) (h : form.fits s) :
    leading? s = some form := by
  have hgrowth (m : Marker) (h : (m.term.first? s).isSome) : leading? s = some m.form := by
    obtain ⟨⟨⟨base, coefficient⟩, rest⟩, hterm⟩ := Option.isSome_iff_exists.1 h
    obtain ⟨b, t, u, k, hb, hu, hk, -, -⟩ := m.growth?_of_term hterm
    simp [leading?, hb, hu, hk]
  cases form with
  | quadratic => exact hgrowth .squared h
  | linear => exact hgrowth .plain h
  | perLevel => exact hgrowth .perLevel h
  | percentage =>
      rw [Form.fits, first?_percentValue, Option.isSome_iff_exists] at h
      simp only [Option.bind_eq_bind, Option.bind_eq_some_iff] at h
      obtain ⟨-, ⟨b, t⟩, hb, rest, hpercent, -⟩ := h
      simp [leading?, hb, opening?_of_percent? hpercent, hpercent]
  | bare => exact absurd hform (by decide)

theorem fits_unique {a b : Form} (ha : a ∈ priority.take 4) (hb : b ∈ priority.take 4)
    (hfa : a.fits s) (hfb : b.fits s) : a = b :=
  Option.some.inj ((leading?_of_fits ha hfa).symm.trans (leading?_of_fits hb hfb))

/-! ### The order of the forms -/

/-- Where at most one member of a list has a result, it does not matter in which order they are
asked. -/
theorem findSome?_perm {α β : Type} {f : α → Option β} {xs ys : List α} (h : xs.Perm ys)
    (hone : ∀ a ∈ xs, ∀ b ∈ xs, (f a).isSome → (f b).isSome → a = b) :
    xs.findSome? f = ys.findSome? f := by
  induction h with
  | nil => rfl
  | cons a hperm ih =>
      rw [List.findSome?_cons, List.findSome?_cons, ih fun b hb c hc =>
        hone b (List.mem_cons_of_mem _ hb) c (List.mem_cons_of_mem _ hc)]
  | swap a b xs =>
      have hab := hone a (by simp) b (by simp)
      cases ha : f a with
      | none => simp [List.findSome?_cons, ha]
      | some x =>
          cases hb : f b with
          | none => simp [ha, hb]
          | some y =>
              obtain rfl := hab (by simp [ha]) (by simp [hb])
              rfl
  | trans hxy hyz ihx ihy =>
      exact (ihx hone).trans (ihy fun a ha b hb => hone a (hxy.mem_iff.2 ha) b (hxy.mem_iff.2 hb))

theorem Form.fits_of_read? {form : Form} (h : (form.read? s).isSome) : form.fits s := by
  rw [Form.read?_eq, Option.isSome_map] at h
  cases form <;> exact Option.isSome_of_isSome_bind h

theorem readBy_perm {order : List Form} (h : order.Perm (priority.take 4)) (s : List Char) :
    readBy (order ++ priority.drop 4) s = read s := by
  have hleading : order.findSome? (·.read? s) = (priority.take 4).findSome? (·.read? s) :=
    findSome?_perm h fun a ha b hb hra hrb =>
      fits_unique (h.mem_iff.1 ha) (h.mem_iff.1 hb) (Form.fits_of_read? hra)
        (Form.fits_of_read? hrb)
  have hpriority : readBy (priority.take 4 ++ priority.drop 4) s = read s := by
    rw [List.take_append_drop, read]
  rw [← hpriority, readBy, readBy, List.findSome?_append, List.findSome?_append, hleading]

/-! ### Growth terms -/

theorem isGuarded_of_opening? {b : Numeral} (hb : numeral? (s.dropWhile isLead) = some (b, t))
    (hopening : (opening? t).isSome) : IsGuarded s := by
  refine ⟨⟨s.dropWhile isLead, t⟩, t, ?_, ?_⟩
  · rw [first?, readings, bareValue_apply]
    show numeral.first? _ = _
    rw [first?_numeral, hb]
    rfl
  · rw [← Option.not_isNone, first?_growthOpening_isNone, Option.not_isNone, hopening]

theorem IsGuarded.read?_bare (h : IsGuarded s) : Form.bare.read? s = none := by
  obtain ⟨value, rest, hvalue, hopening⟩ := h
  have hreading : Form.bare.reading? s = none := by
    simp [Form.reading?, hvalue, guard, Option.isSome_iff_ne_none.1 hopening]
  rw [Form.read?_eq, hreading]
  rfl

theorem Marker.form_mem (m : Marker) : m.form ∈ priority.take 4 := by
  cases m <;> decide

theorem Marker.fits_form (m : Marker) (s : List Char) :
    m.form.fits s = (m.term.first? s).isSome := by
  cases m <;> rfl

theorem read?_of_ne {m : Marker} (hfits : m.form.fits s) (hguarded : IsGuarded s) {form : Form}
    (hne : form ≠ m.form) : form.read? s = none := by
  by_cases hbare : form = .bare
  · rw [hbare]
    exact hguarded.read?_bare
  · have hform : form ∈ priority.take 4 := by
      cases form <;> first | decide | exact absurd rfl hbare
    apply Option.not_isSome_iff_eq_none.1
    intro hread
    exact hne (fits_unique hform m.form_mem (Form.fits_of_read? hread) hfits)

theorem read_eq_none_iff {m : Marker} {base coefficient : Span}
    (h : m.term.first? s = some ((base, coefficient), rest)) :
    read s = none ↔ Span.value? base = none ∨ Span.value? coefficient = none := by
  obtain ⟨b, t, u, k, hb, hu, hk, hbase, hcoefficient⟩ := m.growth?_of_term h
  rw [read_eq_map, hbase, hcoefficient]
  cases hbv : b.value? <;> cases hkv : k.value? <;> simp [hb, behind?, hu, hk, hbv, hkv]

/-- At most one of the forms that are tried first fits a fragment, so they may be tried in any
order. Where a growth term fits, it is opened behind the bare value, and no other form has a
formula: there is none at all unless both its numerals are numbers. -/
theorem forms_exclusive (s : List Char) :
    (∀ a ∈ priority.take 4, ∀ b ∈ priority.take 4, a.fits s → b.fits s → a = b) ∧
    (∀ order : List Form, order.Perm (priority.take 4) →
      readBy (order ++ priority.drop 4) s = read s) ∧
    ∀ (m : Marker) (base coefficient : Span) (rest : List Char),
      m.term.first? s = some ((base, coefficient), rest) →
        IsGuarded s ∧ (∀ form, form ≠ m.form → form.read? s = none) ∧
          (read s = none ↔ Span.value? base = none ∨ Span.value? coefficient = none) := by
  refine ⟨fun a ha b hb => fits_unique ha hb, fun order h => readBy_perm h s, ?_⟩
  intro m base coefficient rest hterm
  obtain ⟨b, t, u, k, hb, hu, -⟩ := m.growth?_of_term hterm
  have hfits : m.form.fits s := by
    rw [m.fits_form, hterm]
    rfl
  have hguarded := isGuarded_of_opening? hb (Option.isSome_of_eq_some hu)
  exact ⟨hguarded, fun form hne => read?_of_ne hfits hguarded hne, read_eq_none_iff hterm⟩

/-- A growth term whose base value has a second point. -/
theorem forms_exclusive_malformed :
    let s := "1.2.3 (+ 4 × L)".toList
    let base : Span := ⟨s, " (+ 4 × L)".toList⟩
    let coefficient : Span := ⟨"4 × L)".toList, " × L)".toList⟩
    let order : List Form := [.perLevel, .percentage, .linear, .quadratic]
    (Form.linear.fits s ∧ ¬Form.quadratic.fits s) ∧
    (order.Perm (priority.take 4) ∧ readBy (order ++ priority.drop 4) s = read s) ∧
    Marker.plain.term.first? s = some ((base, coefficient), []) ∧ Span.value? base = none ∧
    IsGuarded s ∧ Form.bare.read? s = none ∧ read s = none := by
  intro s base coefficient order
  have hterm : Marker.plain.term.first? s = some ((base, coefficient), []) := by
    with_unfolding_all rfl
  have hfits : Form.linear.fits s := (Marker.fits_form .plain s).trans (by rw [hterm]; rfl)
  have hbase : Span.value? base = none := by with_unfolding_all rfl
  have hperm : order.Perm (priority.take 4) := by decide
  obtain ⟨hone, horder, hgrowth⟩ := forms_exclusive s
  obtain ⟨hguarded, hothers, hnone⟩ := hgrowth .plain base coefficient [] hterm
  have hquadratic : ¬Form.quadratic.fits s := fun h =>
    absurd (hone .quadratic (by decide) .linear (by decide) h hfits) (by decide)
  exact ⟨⟨hfits, hquadratic⟩, ⟨hperm, horder order hperm⟩, hterm, hbase, hguarded,
    hothers .bare (by decide), hnone.2 (.inl hbase)⟩

end StatAlmanac.Fragment
