import Mathlib.Data.List.DropRight
import StatAlmanac.Proofs.Formula.Growth

/-!
The forms of a fragment and its cap together are what one pass over the
fragment finds. Whether the text behind the first numeral opens a growth term
settles which forms can apply, so the order in which they are tried does not
matter beyond that.
-/

namespace StatAlmanac.Fragment

open Text Text.Reader

variable {β : Type} {s rest : List Char}

/-! ### The forms -/

theorem first?_growthOpening_isNone (s : List Char) :
    (growthOpening.first? s).isNone = (opening? s).isNone := by
  rw [← bind_pure growthOpening, growthOpening_bind, first?_after]
  cases opening? s <;> rfl

theorem percent?_of_opening? (h : opening? s = some rest) : percent? s = none := by
  obtain ⟨t, hparen, -⟩ := Option.bind_eq_some_iff.1 h
  obtain ⟨c, hs, hc⟩ := take?_eq_some hparen
  exact solid?_eq_none hs (by rw [eq_of_beq hc]; rfl)

theorem bareValue_apply (s : List Char) : bareValue s = numeral (s.dropWhile isLead) :=
  many_bind_apply (refuses_numeral fun _ => not_isDigit_of_isLead) s

theorem Form.reading?_growth (m : Marker) (s : List Char) :
    m.form.reading? s = growthReading? (growthTerm m.reader) m.formula s := by
  cases m <;> rfl

theorem Form.reading?_bare (s : List Char) :
    Form.bare.reading? s = do
      let (base, s) ← numeral? (s.dropWhile isLead)
      if (opening? s).isSome then none
      else return (.flat (← base.value?), s) := by
  rw [reading?, first?, readings, bareValue_apply]
  show Option.bind (numeral.first? _) _ = _
  rw [first?_numeral]
  cases hbase : numeral? (s.dropWhile isLead) with
  | none => rfl
  | some b =>
      cases hopening : opening? b.2 <;>
        simp [first?_growthOpening_isNone, hopening, value?_span hbase, guard]

theorem refuses_percentSign : percentSign.Refuses isNumeralChar :=
  refuses_blanks_bind (f := fun _ => one (· == '%')) (fun _ => not_isBlank_of_isNumeralChar)
    (refuses_mark (by decide))

theorem first?_percentValue (s : List Char) :
    percentValue.first? s = do
      let (_, t) ← numeral? (s.dropWhile isLead)
      let rest ← percent? t
      return (⟨s.dropWhile isLead, t⟩, rest) := by
  have hpercent : percentValue s =
      (numeral >>= fun value => percentSign >>= fun _ => pure value) (s.dropWhile isLead) := by
    rw [percentValue, bind_apply, bareValue_apply]
    rfl
  rw [first?, readings, hpercent, numeral_bind fun _ => refuses_percentSign.bind _]
  cases numeral? (s.dropWhile isLead) with
  | none => rfl
  | some b =>
      show ((percentSign >>= fun _ => pure _) b.2).head? = _
      rw [percentSign_bind]
      exact (first?_after ..).trans (Option.bind_congr fun rest _ => rfl)

theorem Form.reading?_percentage (s : List Char) :
    Form.percentage.reading? s = do
      let (base, s) ← numeral? (s.dropWhile isLead)
      let s ← percent? s
      return (.percentage (← base.value?), s) := by
  rw [reading?, first?_percentValue]
  cases hbase : numeral? (s.dropWhile isLead) with
  | none => rfl
  | some b => cases hpercent : percent? b.2 <;> simp [hpercent, value?_span hbase]

/-- The forms in their order read what one look behind the base value finds. -/
theorem findSome?_reading? (s : List Char) :
    priority.findSome? (·.reading? s) =
      (numeral? (s.dropWhile isLead)).bind fun (base, s) => behind? base s := by
  have hgrowth (m : Marker) := (Form.reading?_growth m s).trans (growthReading?_marker m _ s)
  have hquadratic : Form.quadratic.reading? s = _ := hgrowth .squared
  have hlinear : Form.linear.reading? s = _ := hgrowth .plain
  have hperLevel : Form.perLevel.reading? s = _ := hgrowth .perLevel
  simp only [priority, List.findSome?, hquadratic, hlinear, hperLevel, Form.reading?_percentage,
    Form.reading?_bare]
  cases numeral? (s.dropWhile isLead) with
  | none => rfl
  | some b =>
      obtain ⟨base, t⟩ := b
      cases hopening : opening? t with
      | none =>
          cases hpercent : percent? t <;> cases hvalue : base.value? <;>
            simp [behind?, hopening, hpercent, hvalue]
      | some u =>
          have hpercent : percent? t = none := percent?_of_opening? hopening
          cases hterm : growth? u with
          | none => simp [behind?, hopening, hpercent, hterm]
          | some term =>
              obtain ⟨⟨coefficient, g⟩, v⟩ := term
              cases hbase : base.value? <;> cases hcoefficient : coefficient.value? <;> cases g <;>
                simp [behind?, hopening, hpercent, hterm, hbase, hcoefficient, Marker.formula]

/-! ### The cap -/

theorem trimStart_of_mem_stops {t : List Char} (h : t ∈ stops isBlank s) :
    trimStart t = trimStart s := by
  induction s with
  | nil => rw [List.mem_singleton.1 h]
  | cons c s ih =>
      rw [stops] at h
      rcases List.mem_cons.1 h with rfl | h
      · rfl
      · by_cases hc : isBlank c
        · rw [if_pos hc] at h
          exact (ih h).trans (List.dropWhile_cons_of_pos hc).symm
        · rw [if_neg hc] at h
          cases h

theorem trimStart_trimStart (s : List Char) : trimStart (trimStart s) = trimStart s :=
  List.dropWhile_idempotent isBlank s

theorem first?_skipMark {mark : Char} {next : Reader β} (hsolid : isBlank mark = false)
    (hblank : next.Refuses isBlank) (hmark : next.Refuses (· == mark)) (s : List Char) :
    (blanks >>= fun _ => optional (one (· == mark)) >>= fun _ =>
      blanks >>= fun _ => next).first? s =
      next.first? (skipMark mark s) := by
  let marked : Reader β := optional (one (· == mark)) >>= fun _ => blanks >>= fun _ => next
  have hmarked (t : List Char) : marked t =
      after (take? (· == mark)) (blanks >>= fun _ => next) t ++ next (trimStart t) := by
    show (optional _ >>= _) t = _
    rw [optional_bind, one_bind, blanks_bind_apply hblank t]
  -- where the mark is not taken, nothing but the text behind all blanks counts
  have hnext : marked (trimStart s) = next (skipMark mark s) := by
    rw [hmarked, trimStart_trimStart, skipMark, solid?]
    cases htake : take? (· == mark) (trimStart s) with
    | none =>
        rw [after_none htake, Option.getD_none, trimStart_trimStart]
        rfl
    | some t =>
        obtain ⟨c, hs, hc⟩ := take?_eq_some htake
        rw [after_some htake, Option.getD_some, blanks_bind_apply hblank t, hs, hmark c t hc]
        exact List.append_nil _
  have hnone : marked (trimStart s) = [] → ∀ x ∈ blanks s, marked x.2 = [] := by
    rintro hempty x hx
    obtain ⟨t, ht, rfl⟩ := List.mem_map.1 hx
    show marked t = []
    have hfront : trimStart t = trimStart s := trimStart_of_mem_stops (List.mem_reverse.1 ht)
    cases htake : take? (· == mark) t with
    | none =>
        rw [hmarked, trimStart_trimStart] at hempty
        rw [hmarked, hfront, after_none htake, (List.append_eq_nil_iff.1 hempty).2]
        rfl
    | some u =>
        obtain ⟨c, rfl, hc⟩ := take?_eq_some htake
        rw [trimStart_of_solid (by rwa [eq_of_beq hc])] at hfront
        rwa [hfront]
  exact (first?_bind_of_decides (first?_many isBlank s) hnone).trans (congrArg List.head? hnext)

def capWord : Reader Unit :=
  (do word "max".toList; optional (word "imum".toList)).orElse
    (do word "capped".toList; one isBlank; blanks; word "at".toList)

theorem dropName?_eq_none {a b : Char} {name other : List Char} (hab : (fold a == fold b) = false)
    (h : dropName? (a :: name) s = some rest) : dropName? (b :: other) s = none := by
  obtain ⟨c, t, rfl, hc, -⟩ := dropName?_cons_eq_some h
  rw [dropName?, sameLetter_eq_false hab hc]
  rfl

theorem capWord_bind {f : Unit → Reader β} (h : (f ()).Refuses (sameLetter 'i')) :
    (capWord >>= f) = after capWord? (f ()) := by
  have hat : "at".toList = 'a' :: "t".toList := rfl
  funext s
  have hwords : (capWord >>= f) s =
      after (dropName? "max".toList) (optional (word "imum".toList) >>= f) s ++
        after cappedAt? (f ()) s := by
    simp only [capWord, orElse_bind, bind_assoc]
    rw [word_bind, word_bind, one_bind, hat, blanks_word_bind (by decide), after_after,
      after_after]
    exact congrArg _ (after_congr (Option.bind_assoc ..) _)
  rw [hwords]
  cases hmax : dropName? "max".toList s with
  | none =>
      have hword : capWord? s = cappedAt? s := by simp only [capWord?, hmax]
      rw [after_none hmax, after_congr hword]
      rfl
  | some t =>
      have hword : capWord? s = some ((dropName? "imum".toList t).getD t) := by
        simp only [capWord?, hmax]
      have hother : dropName? "capped".toList s = none :=
        dropName?_eq_none (a := 'm') (by decide) hmax
      have hcapped : cappedAt? s = none := by
        rw [cappedAt?, hother]
        rfl
      rw [after_some hmax, after_none hcapped, after_some hword, List.append_nil, optional_bind,
        word_bind]
      cases himum : dropName? "imum".toList t with
      | none =>
          rw [after_none himum]
          rfl
      | some u =>
          obtain ⟨c, v, rfl, hc, -⟩ := dropName?_cons_eq_some himum
          rw [after_some himum, h c v hc]
          exact List.append_nil _

def capTail : Reader Span := do
  blanks
  optional (one (· == ':'))
  blanks
  numeral

theorem refuses_capTail : capTail.Refuses (sameLetter 'i') := by
  have hblank : ∀ c, sameLetter 'i' c → isBlank c = false := fun _ =>
    not_isBlank_of_sameLetter (by decide)
  have hcolon : ∀ c, sameLetter 'i' c → (c == ':') = false := fun _ =>
    beq_of_class (by decide)
  have hdigit : ∀ c, sameLetter 'i' c → isDigit c = false := by
    intro c hc
    apply Bool.eq_false_iff.2
    intro hdigit
    rw [sameLetter_isNumeralChar (by decide) (isNumeralChar_of_isDigit hdigit)] at hc
    cases hc
  exact refuses_blanks_bind hblank
    (refuses_optional_bind (refuses_one hcolon)
      (refuses_blanks_bind hblank (refuses_numeral hdigit)))

theorem first?_capTail (s : List Char) : capTail.first? s = numeral.first? (skipMark ':' s) := by
  have hcolon : ∀ c, (c == ':') → isDigit c = false := by
    intro c hc
    rw [eq_of_beq hc]
    rfl
  exact first?_skipMark (by decide) (refuses_numeral fun _ => not_isDigit_of_isBlank)
    (refuses_numeral hcolon) s

theorem first?_capValue (s : List Char) :
    capValue.first? s =
      (capWord? (skipMark '(' s)).bind fun t => numeral.first? (skipMark ':' t) := by
  have hrefuses {p : Char → Bool} (hm : ∀ c, p c → sameLetter 'm' c = false)
      (hc : ∀ c, p c → sameLetter 'c' c = false) : (capWord >>= fun _ => capTail).Refuses p :=
    (((refuses_word _ hm).bind _).orElse ((refuses_word _ hc).bind _)).bind _
  have hblank : (capWord >>= fun _ => capTail).Refuses isBlank :=
    hrefuses (fun _ => not_sameLetter_of_isBlank (by decide)) fun _ =>
      not_sameLetter_of_isBlank (by decide)
  have hparen : (capWord >>= fun _ => capTail).Refuses (· == '(') := by
    refine hrefuses ?_ ?_ <;>
    · intro c hc
      rw [eq_of_beq hc]
      decide
  have hfront : capValue.first? s = (capWord >>= fun _ => capTail).first? (skipMark '(' s) :=
    first?_skipMark (by decide) hblank hparen s
  rw [hfront, capWord_bind refuses_capTail, first?_after]
  exact Option.bind_congr fun t _ => first?_capTail t

theorem cap?_eq (s : List Char) : cap? s = (capNumeral? s).bind Numeral.value? := by
  rw [cap?, first?_capValue, capNumeral?]
  cases capWord? (skipMark '(' s) with
  | none => rfl
  | some t =>
      show Option.bind (numeral.first? _) _ = _
      rw [first?_numeral]
      cases hvalue : numeral? (skipMark ':' t) with
      | none => simp [hvalue]
      | some n => simp [hvalue, value?_span hvalue]

/-! ### The fragment -/

theorem Form.read?_eq (s : List Char) (form : Form) :
    form.read? s = (form.reading? s).map fun (f, s) => capped f s := by
  rw [read?]
  cases form.reading? s with
  | none => rfl
  | some x =>
      obtain ⟨f, t⟩ := x
      cases hcap : cap? t <;> simp [hcap, capped, ← cap?_eq]

theorem read_eq_map (s : List Char) :
    read s = ((numeral? (s.dropWhile isLead)).bind fun (base, s) => behind? base s).map
      fun (f, s) => capped f s := by
  rw [read, readBy, ← findSome?_reading?, List.map_findSome?]
  congr 1
  funext form
  exact form.read?_eq s

/-- The five forms in their order of priority, each with its first reading, and the cap amount to
one pass over the fragment. -/
theorem read_eq_recognise (s : List Char) : read s = recognise s := by
  rw [read_eq_map, recognise]
  cases numeral? (s.dropWhile isLead) with
  | none => rfl
  | some b => exact Option.map_eq_bind ..

end StatAlmanac.Fragment
