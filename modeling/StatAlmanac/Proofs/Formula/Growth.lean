import StatAlmanac.Proofs.Formula.OnePass

/-!
Growth terms are read in one pass. The three kinds of growth term part at their
markers only: what one marker takes in front of the closing parenthesis, no
other does.
-/

namespace StatAlmanac.Fragment

open Text Text.Reader

variable {β : Type} {s rest : List Char}

/-! ### What no marker starts with -/

theorem percent?_eq_some (h : percent? s = some rest) : trimStart s = '%' :: rest := by
  rw [percent?, solid?] at h
  cases hs : trimStart s with
  | nil =>
      rw [hs] at h
      cases h
  | cons c t =>
      rw [hs, take?] at h
      split at h
      · rename_i hc
        rw [eq_of_beq hc, Option.some.inj h]
      · cases h

theorem Marker.take?_eq_none (m : Marker) {c : Char} {t : List Char} (hs : trimStart s = c :: t)
    (htimes : ['×', 'x', 'X', '*', '·'].contains c = false) (hper : sameLetter 'p' c = false) :
    m.take? s = none := by
  have htimes? : times? s = none := solid?_eq_none hs htimes
  have hper? : perLevel? s = none := by
    have hword : dropName? "per".toList (c :: t) = none := by
      show (if sameLetter 'p' c then _ else none) = none
      rw [hper, if_neg Bool.false_ne_true]
    rw [perLevel?, hs, hword]
    rfl
  cases m with
  | squared => rw [take?, htimes?]; rfl
  | plain => rw [take?, htimes?]; rfl
  | perLevel => exact hper?

/-- A percent sign can only be passed over. -/
theorem Marker.take?_of_percent? (m : Marker) (h : percent? s = some rest) : m.take? s = none :=
  m.take?_eq_none (percent?_eq_some h) (by decide) (by decide)

/-! ### One pass -/

def Marker.close? (m : Marker) (s : List Char) : Option (List Char) :=
  (m.take? ((percent? s).getD s)).bind closing?

theorem Marker.percent_reader_bind (m : Marker) (f : Unit → Reader β) :
    (optional percentSign >>= fun _ => m.reader >>= fun _ => closing >>= f) =
      after m.close? (f ()) := by
  funext s
  rw [optional_bind, percentSign_bind, m.reader_bind, after_after]
  cases hpercent : percent? s with
  | none =>
      have hclose : m.close? s = (m.take? s).bind closing? := by
        rw [close?, hpercent, Option.getD_none]
      rw [after_none (by rw [hpercent]; rfl), after_congr (hclose.symm)]
      rfl
  | some t =>
      have hclose : (percent? s).bind (fun s => (m.take? s).bind closing?) = m.close? s := by
        rw [close?, hpercent, Option.getD_some, Option.bind_some]
      have hnone : (m.take? s).bind closing? = none := by
        rw [m.take?_of_percent? hpercent]
        rfl
      rw [after_congr hclose, after_none (t := fun s => (m.take? s).bind closing?) hnone]
      exact List.append_nil _

theorem Marker.refuses_reader (m : Marker) (f : Unit → Reader β) :
    (optional percentSign >>= fun _ => m.reader >>= fun _ => closing >>= f).Refuses
      isNumeralChar := by
  intro c s hc
  have hstays := trimStart_of_solid (not_isBlank_of_isNumeralChar hc) s
  have hpercent : percent? (c :: s) = none := by
    cases h : percent? (c :: s) with
    | none => rfl
    | some t =>
        have hsign : c = '%' := (List.cons.inj (hstays.symm.trans (percent?_eq_some h))).1
        subst hsign
        exact absurd hc (by decide)
  have hclose : m.close? (c :: s) = none := by
    rw [close?, hpercent, Option.getD_none,
      m.take?_eq_none hstays (contains_of_class (by decide) hc)
      (sameLetter_isNumeralChar (by decide) hc)]
    rfl
  rw [m.percent_reader_bind]
  exact after_none hclose _

theorem refuses_numeral {p : Char → Bool} (h : ∀ c, p c → isDigit c = false) :
    numeral.Refuses p := by
  intro c s hc
  exact numeral_of_not_isDigit (by simp [h c hc]) s

theorem not_isDigit_of_isBlank {c : Char} (h : isBlank c) : isDigit c = false := by
  apply Bool.eq_false_iff.2
  intro hdigit
  rw [not_isBlank_of_isNumeralChar (isNumeralChar_of_isDigit hdigit)] at h
  cases h

theorem not_isDigit_of_isLead {c : Char} (h : isLead c) : isDigit c = false := by
  rw [isLead, Bool.or_eq_true, Bool.or_eq_true, beq_iff_eq, beq_iff_eq] at h
  rcases h with (h | rfl) | rfl
  · exact not_isDigit_of_isBlank h
  · decide
  · decide

theorem refuses_mark {m : Char} (hm : isNumeralChar m = false) :
    (one (· == m)).Refuses isNumeralChar :=
  refuses_one fun _ => beq_of_class hm

theorem refuses_growthOpening : growthOpening.Refuses isNumeralChar := by
  have hopens : (one (· == '(') >>= fun _ => blanks >>= fun _ => one (· == '+')).Refuses
      isNumeralChar := (refuses_mark (by decide)).bind _
  exact refuses_blanks_bind (fun _ => not_isBlank_of_isNumeralChar) hopens

def coefficientTerm (m : Marker) (base : Span) : Reader (Span × Span) := do
  blanks
  let coefficient ← numeral
  optional percentSign
  m.reader
  closing
  return (base, coefficient)

theorem coefficientTerm_apply (m : Marker) (base : Span) (s : List Char) :
    coefficientTerm m base s =
      (numeral? (trimStart s)).elim [] fun c =>
        after m.close? (result (base, ⟨trimStart s, c.2⟩)) c.2 := by
  have hblank : (numeral >>= fun c => optional percentSign >>= fun _ => m.reader >>= fun _ =>
      closing >>= fun _ => result (base, c)).Refuses isBlank :=
    (refuses_numeral fun _ => not_isDigit_of_isBlank).bind _
  show (blanks >>= fun _ => numeral >>= fun c => optional percentSign >>= fun _ => m.reader >>=
    fun _ => closing >>= fun _ => result (base, c)) s = _
  rw [blanks_bind_apply hblank, numeral_bind fun c => m.refuses_reader _]
  simp only [m.percent_reader_bind]

theorem growthTerm_apply (m : Marker) (s : List Char) :
    growthTerm m.reader s =
      (numeral? (s.dropWhile isLead)).elim [] fun b =>
        after opening? (coefficientTerm m ⟨s.dropWhile isLead, b.2⟩) b.2 := by
  have hlead : (numeral >>= fun base => growthOpening >>= fun _ => coefficientTerm m base).Refuses
      isLead := (refuses_numeral fun _ => not_isDigit_of_isLead).bind _
  show (many isLead >>= fun _ => numeral >>= fun base => growthOpening >>= fun _ =>
    coefficientTerm m base) s = _
  rw [many_bind_apply hlead, numeral_bind fun b => refuses_growthOpening.bind _]
  simp only [growthOpening_bind]

theorem first?_growthTerm (m : Marker) (s : List Char) :
    (growthTerm m.reader).first? s = do
      let (_, t) ← numeral? (s.dropWhile isLead)
      let u ← opening? t
      let (_, v) ← numeral? (trimStart u)
      let rest ← m.close? v
      return ((⟨s.dropWhile isLead, t⟩, ⟨trimStart u, v⟩), rest) := by
  rw [first?, readings, growthTerm_apply]
  cases numeral? (s.dropWhile isLead) with
  | none => rfl
  | some b =>
      refine (first?_after ..).trans (Option.bind_congr fun u hu => ?_)
      rw [first?, readings, coefficientTerm_apply]
      cases numeral? (trimStart u) with
      | none => rfl
      | some c =>
          refine (first?_after ..).trans (Option.bind_congr fun rest hrest => ?_)
          rfl

theorem growthReading?_eq (m : Marker) (make : Float → Float → Formula) (s : List Char) :
    growthReading? (growthTerm m.reader) make s = do
      let (base, s) ← numeral? (s.dropWhile isLead)
      let s ← opening? s
      let (coefficient, s) ← numeral? (trimStart s)
      let s ← m.close? s
      return (make (← base.value?) (← coefficient.value?), s) := by
  rw [growthReading?, first?_growthTerm]
  cases hbase : numeral? (s.dropWhile isLead) with
  | none => rfl
  | some b =>
      obtain ⟨base, t⟩ := b
      cases hopening : opening? t with
      | none => simp [hopening]
      | some u =>
          cases hcoefficient : numeral? (trimStart u) with
          | none => simp [hopening, hcoefficient]
          | some c =>
              obtain ⟨coefficient, v⟩ := c
              cases hclose : m.close? v with
              | none => simp [hopening, hcoefficient, hclose]
              | some rest =>
                  simp [hopening, hcoefficient, hclose, value?_span hbase,
                    value?_span hcoefficient]

/-! ### One marker only -/

theorem take?_eq_some {p : Char → Bool} (h : take? p s = some rest) : ∃ c, s = c :: rest ∧ p c := by
  cases s with
  | nil => cases h
  | cons c s =>
      rw [take?] at h
      split at h
      · rename_i hc
        cases h
        exact ⟨c, rfl, hc⟩
      · cases h

/-- A growth term that names a product has no other marker. -/
theorem perLevel?_of_times? (h : times? s = some rest) : perLevel? s = none := by
  obtain ⟨c, hs, hc⟩ := take?_eq_some h
  have hall : ∀ c ∈ ['×', 'x', 'X', '*', '·'], sameLetter 'p' c = false := by decide
  have hword : dropName? "per".toList (trimStart s) = none := by
    rw [hs]
    show (if sameLetter 'p' c then _ else none) = none
    rw [hall c (List.contains_iff_mem.1 hc), if_neg Bool.false_ne_true]
  rw [perLevel?, hword]
  rfl

theorem closing?_of_squareMark? (h : squareMark? (trimStart s) = some rest) :
    closing? s = none := by
  have hmark (c : Char) (t : List Char) (hs : trimStart s = c :: t) (hc : (c == ')') = false) :
      closing? s = none := solid?_eq_none hs hc
  rw [squareMark?] at h
  cases hsign : take? (fun c => c == '²' || c == '2') (trimStart s) with
  | some t =>
      obtain ⟨c, hs, hc⟩ := take?_eq_some hsign
      rw [Bool.or_eq_true, beq_iff_eq, beq_iff_eq] at hc
      rcases hc with rfl | rfl <;> exact hmark _ _ hs (by decide)
  | none =>
      rw [hsign, Option.none_or] at h
      obtain ⟨t, hcaret, -⟩ := Option.bind_eq_some_iff.1 h
      obtain ⟨c, hs, hc⟩ := take?_eq_some hcaret
      exact hmark _ _ hs (by rw [eq_of_beq hc]; decide)

/-- In front of a closing parenthesis there is one marker at most. -/
theorem take?_bind_closing? (m : Marker) (s : List Char) :
    (m.take? s).bind closing? =
      (marker? s).bind fun (g, s) => if g = m then closing? s else none := by
  cases htimes : times? s with
  | none =>
      cases m <;> cases hper : perLevel? s <;> simp [Marker.take?, marker?, htimes, hper]
  | some t =>
      have hper : perLevel? s = none := perLevel?_of_times? htimes
      cases hlevel : levelWord? (trimStart t) with
      | none => cases m <;> simp [Marker.take?, marker?, htimes, hlevel, hper]
      | some u =>
          cases hsquare : squareMark? (trimStart u) with
          | none => cases m <;> simp [Marker.take?, marker?, htimes, hlevel, hsquare, hper]
          | some v =>
              have hclosing : closing? u = none := closing?_of_squareMark? hsquare
              cases m <;>
                simp [Marker.take?, marker?, htimes, hlevel, hsquare, hper, hclosing]

/-- A growth form reads the growth term of its own marker. -/
theorem growthReading?_marker (m : Marker) (make : Float → Float → Formula) (s : List Char) :
    growthReading? (growthTerm m.reader) make s = do
      let (base, s) ← numeral? (s.dropWhile isLead)
      let s ← opening? s
      let ((coefficient, g), s) ← growth? s
      if g ≠ m then none
      else return (make (← base.value?) (← coefficient.value?), s) := by
  rw [growthReading?_eq]
  refine Option.bind_congr fun b _ => Option.bind_congr fun u _ => ?_
  cases hcoefficient : numeral? (trimStart u) with
  | none => simp [growth?, hcoefficient]
  | some c =>
      obtain ⟨coefficient, v⟩ := c
      have hclose : m.close? v = (marker? ((percent? v).getD v)).bind fun (g, s) =>
          if g = m then closing? s else none := take?_bind_closing? m _
      cases hmarker : marker? ((percent? v).getD v) with
      | none => simp [growth?, hcoefficient, hclose, hmarker]
      | some marker =>
          obtain ⟨g, w⟩ := marker
          by_cases hg : g = m
          · cases hclosing : closing? w <;>
              simp [growth?, hcoefficient, hclose, hmarker, hg, hclosing]
          · cases hclosing : closing? w <;>
              simp [growth?, hcoefficient, hclose, hmarker, hg, hclosing]

end StatAlmanac.Fragment
