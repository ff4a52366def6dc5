import StatAlmanac.Proofs.Formula.Written

/-!
Values in front of an opened growth term. A bare number is no value there, so
that a term the forms do not know leaves nothing to read. A percentage has no
such guard: the number with its sign is read for all levels alike, and the
growth behind it is lost.
-/

namespace StatAlmanac.Fragment

open Text Text.Reader

/-- A fragment that starts with a numeral, perhaps with a percent sign, and goes on with the opening
of a growth term. -/
structure Opened where
  lead : List Char
  numeral : Numeral
  /-- The blanks in front of the percent sign, if there is one. -/
  percent : Option (List Char)
  /-- The blanks in front of the parenthesis. -/
  gap : List Char
  /-- The blanks between the parenthesis and the plus sign. -/
  inner : List Char
  rest : List Char
  leads : ∀ c ∈ lead, isLead c
  written : numeral.IsWritten
  percent_blank : ∀ s ∈ percent, ∀ c ∈ s, isBlank c
  gap_blank : ∀ c ∈ gap, isBlank c
  inner_blank : ∀ c ∈ inner, isBlank c

namespace Opened

def opening (o : Opened) : List Char := o.gap ++ '(' :: (o.inner ++ '+' :: o.rest)

def sign (o : Opened) : List Char := o.percent.elim [] (· ++ ['%'])

def text (o : Opened) : List Char := o.lead ++ (o.numeral.text ++ (o.sign ++ o.opening))

end Opened

/-! ### Marks behind blanks -/

variable {s gap rest : List Char} {c : Char}

theorem trimStart_append (hgap : ∀ c ∈ gap, isBlank c) (hc : isBlank c = false) :
    trimStart (gap ++ c :: rest) = c :: rest := by
  refine dropWhile_append hgap fun d hd => ?_
  obtain rfl := Option.some.inj hd
  exact hc

theorem solid?_append {p : Char → Bool} (hgap : ∀ c ∈ gap, isBlank c) (hc : isBlank c = false)
    (hp : p c) : solid? p (gap ++ c :: rest) = some rest := by
  rw [solid?, trimStart_append hgap hc, take?, if_pos hp]

theorem head?_blanks_append (hgap : ∀ c ∈ gap, isBlank c) (hc : isNumeralChar c = false) :
    ∀ d ∈ (gap ++ c :: rest).head?, isNumeralChar d = false := by
  intro d hd
  cases gap with
  | nil => exact head?_not_isNumeralChar hc rest d hd
  | cons b gap =>
      obtain rfl := Option.some.inj hd
      apply Bool.eq_false_iff.2
      intro hnumeral
      have hblank := hgap _ List.mem_cons_self
      rw [not_isBlank_of_isNumeralChar hnumeral] at hblank
      cases hblank

namespace Opened

/-! ### The steps of the pass -/

theorem opening?_opening (o : Opened) : opening? o.opening = some o.rest := by
  rw [opening?, opening, solid?_append o.gap_blank (by decide) rfl, Option.bind_some,
    solid?_append o.inner_blank (by decide) rfl]

/-- An opened growth term is no cap. -/
theorem capNumeral?_opening (o : Opened) : capNumeral? o.opening = none := by
  have hmark : skipMark '(' o.opening = '+' :: o.rest := by
    rw [skipMark, opening, solid?_append o.gap_blank (by decide) rfl, Option.getD_some,
      trimStart_append o.inner_blank (by decide)]
  have hword : capWord? ('+' :: o.rest) = none := rfl
  rw [capNumeral?, hmark, hword]
  rfl

theorem capped_opening (o : Opened) (f : Formula) : capped f o.opening = f := by
  rw [capped, o.capNumeral?_opening]
  rfl

theorem numeral?_text (o : Opened) :
    numeral? (o.text.dropWhile isLead) = some (o.numeral, o.sign ++ o.opening) := by
  have hlead : ∀ c ∈ (o.numeral.text ++ (o.sign ++ o.opening)).head?, isLead c = false := by
    obtain ⟨d, ds, htext, hd⟩ := o.written.text_eq_cons
    intro c hc
    rw [htext] at hc
    obtain rfl := Option.some.inj hc
    exact not_isLead_of_isDigit hd
  have hnext : ∀ c ∈ (o.sign ++ o.opening).head?, isNumeralChar c = false := by
    cases hpercent : o.percent with
    | none =>
        rw [sign, hpercent, Option.elim_none, List.nil_append]
        exact head?_blanks_append o.gap_blank rfl
    | some blanks =>
        rw [sign, hpercent, Option.elim_some, List.append_assoc]
        exact head?_blanks_append (o.percent_blank blanks hpercent) rfl
  rw [text, dropWhile_append o.leads hlead]
  exact o.written.numeral? hnext

/-- Behind a percent sign nothing is asked of what follows. -/
theorem behind?_sign {o : Opened} {blanks : List Char} (h : o.percent = some blanks) :
    behind? o.numeral (o.sign ++ o.opening) =
      o.numeral.value?.map fun value => (.percentage value, o.opening) := by
  have hblank := o.percent_blank blanks h
  have hsign : o.sign ++ o.opening = blanks ++ '%' :: o.opening := by
    rw [sign, h, Option.elim_some, List.append_assoc]
    rfl
  have hopening : opening? (blanks ++ '%' :: o.opening) = none := by
    rw [opening?, solid?_eq_none (trimStart_append hblank (by decide)) rfl]
    rfl
  have hpercent : percent? (blanks ++ '%' :: o.opening) = some o.opening :=
    solid?_append hblank (by decide) rfl
  rw [hsign, behind?]
  simp only [hopening, hpercent]
  cases o.numeral.value? <;> rfl

/-- Without a percent sign an opened growth term is complete, or there is no formula. -/
theorem behind?_opening {o : Opened} {f : Formula} (h : behind? o.numeral o.opening = some (f, s)) :
    ∃ (m : Marker) (base coefficient : Float), f = m.formula base coefficient := by
  rw [behind?, o.opening?_opening] at h
  obtain ⟨⟨⟨coefficient, m⟩, t⟩, -, h⟩ := Option.bind_eq_some_iff.1 h
  obtain ⟨base, -, h⟩ := Option.bind_eq_some_iff.1 h
  obtain ⟨growth, -, h⟩ := Option.bind_eq_some_iff.1 h
  cases h
  exact ⟨m, base, growth, rfl⟩

end Opened

/-- A numeral with a second point has no value. -/
theorem Numeral.length_groups_le {n : Numeral} {value : Float} (h : n.value? = some value) :
    n.groups.length ≤ 1 := by
  rw [value?] at h
  split at h
  · rename_i hgroups
    rw [hgroups]
    exact Nat.zero_le _
  · rename_i hgroups
    rw [hgroups]
    exact Nat.le_refl _
  · cases h

theorem Marker.growth_formula (m : Marker) (base coefficient : Float) :
    (m.formula base coefficient).growth ≠ .flat := by
  cases m <;> exact fun h => by cases h

theorem growth_capped (f : Formula) (s : List Char) : (capped f s).growth = f.growth := by
  rw [capped]
  split <;> rfl

namespace Opened

theorem growth_ne_flat {o : Opened} (h : o.percent = none) {f : Formula}
    (hf : read o.text = some f) : f.growth ≠ .flat := by
  rw [read_eq_map, o.numeral?_text, sign, h, Option.elim_none, List.nil_append,
    Option.bind_some] at hf
  obtain ⟨⟨g, s⟩, hg, rfl⟩ := Option.map_eq_some_iff.1 hf
  obtain ⟨m, base, coefficient, rfl⟩ := behind?_opening hg
  rw [growth_capped]
  exact m.growth_formula base coefficient

theorem read_of_percent {o : Opened} (h : o.percent.isSome) :
    read o.text = o.numeral.value?.map Formula.percentage := by
  obtain ⟨blanks, hblanks⟩ := Option.isSome_iff_exists.1 h
  rw [read_eq_map, o.numeral?_text, Option.bind_some]
  dsimp only
  rw [behind?_sign hblanks, Option.map_map]
  congr 1
  funext value
  exact o.capped_opening _

/-- The growth that a fragment opens is lost where the value in front of it has a percent sign and
is a number, and nowhere else. The fragment is read as the percentage then. -/
theorem growth_dropped_iff (o : Opened) :
    ((∃ f, read o.text = some f ∧ f.growth = .flat) ↔
      o.percent.isSome ∧ o.numeral.groups.length ≤ 1) ∧
    ∀ f, read o.text = some f → f.growth = .flat →
      ∃ value, o.numeral.value? = some value ∧ f = .percentage value := by
  have hpercentage (f : Formula) (hf : read o.text = some f) (hflat : f.growth = .flat) :
      o.percent.isSome ∧ ∃ value, o.numeral.value? = some value ∧ f = .percentage value := by
    cases hpercent : o.percent with
    | none => exact absurd hflat (growth_ne_flat hpercent hf)
    | some blanks =>
        rw [read_of_percent (Option.isSome_of_eq_some hpercent)] at hf
        obtain ⟨value, hvalue, rfl⟩ := Option.map_eq_some_iff.1 hf
        exact ⟨rfl, value, hvalue, rfl⟩
  refine ⟨⟨?_, ?_⟩, fun f hf hflat => (hpercentage f hf hflat).2⟩
  · rintro ⟨f, hf, hflat⟩
    obtain ⟨hpercent, value, hvalue, -⟩ := hpercentage f hf hflat
    exact ⟨hpercent, Numeral.length_groups_le hvalue⟩
  · rintro ⟨hpercent, hgroups⟩
    obtain ⟨value, hvalue⟩ := Option.isSome_iff_exists.1 (Numeral.value?_isSome hgroups)
    exact ⟨.percentage value, by rw [read_of_percent hpercent, hvalue]; rfl, rfl⟩

end Opened

/-- A percentage is read as flat, though growth for each level is written behind it. -/
theorem growth_dropped_percentage :
    ∃ f, read "25% (+ 2% × L)".toList = some f ∧ f.growth = .flat ∧ f.isPercentage := by
  let o : Opened := {
    lead := []
    numeral := ⟨['2', '5'], []⟩
    percent := some []
    gap := [' ']
    inner := []
    rest := " 2% × L)".toList
    leads := by decide
    written := ⟨rfl, by decide, by simp⟩
    percent_blank := by simp
    gap_blank := by decide
    inner_blank := by simp }
  exact ⟨_, o.read_of_percent rfl, rfl, rfl⟩

end StatAlmanac.Fragment
