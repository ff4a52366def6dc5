import StatAlmanac.Proofs.Binary64.Scientific
import StatAlmanac.Proofs.Formula.Levels
import StatAlmanac.Proofs.Formula.Recognised
import StatAlmanac.Proofs.Page.Stats

/-!
Where the numbers of a formula come from. Each of them is the value of a numeral that
stands in the text. That is never NaN, and it is finite unless the numeral is too large
for a float, which takes more than 308 digits.
-/

namespace StatAlmanac

open Text Text.Reader Binary64

namespace Fragment

/-! ### How large a numeral is -/

theorem foldl_digits_bounds {ds : List Char} (h : ∀ c ∈ ds, isDigit c) (n : Nat) :
    n * 10 ^ ds.length ≤ ds.foldl (fun n d => 10 * n + (d.toNat - '0'.toNat)) n ∧
      ds.foldl (fun n d => 10 * n + (d.toNat - '0'.toNat)) n < (n + 1) * 10 ^ ds.length := by
  induction ds generalizing n with
  | nil => simp
  | cons d ds ih =>
      obtain ⟨hlow, hhigh⟩ := ih (fun c hc => h c (List.mem_cons_of_mem _ hc))
        (10 * n + (d.toNat - '0'.toNat))
      have hdigit : d.toNat - '0'.toNat ≤ 9 := by
        have := isDigit_iff.1 (h d List.mem_cons_self)
        show d.toNat - 48 ≤ 9
        omega
      rw [List.foldl_cons, List.length_cons, pow_succ']
      constructor
      · refine le_trans ?_ hlow
        rw [← Nat.mul_assoc]
        exact Nat.mul_le_mul_right _ (by omega)
      · refine hhigh.trans_le ?_
        rw [← Nat.mul_assoc]
        exact Nat.mul_le_mul_right _ (by omega)

theorem digitsValue_lt {ds : List Char} (h : ∀ c ∈ ds, isDigit c) :
    decimalValue?.digitsValue ds < 10 ^ ds.length := by
  have hhigh := (foldl_digits_bounds h 0).2
  rwa [Nat.zero_add, Nat.one_mul] at hhigh

theorem le_digitsValue {d : Char} {ds : List Char} (h : ∀ c ∈ ds, isDigit c) :
    (d.toNat - '0'.toNat) * 10 ^ ds.length ≤ decimalValue?.digitsValue (d :: ds) := by
  rw [decimalValue?.digitsValue, List.foldl_cons, Nat.mul_zero, Nat.zero_add]
  exact (foldl_digits_bounds h _).1

namespace Numeral

variable {n : Numeral} {x : Float}

def wholeDigits (n : Numeral) : Nat := n.whole.countP isDigit

theorem IsWritten.filter_whole (h : n.IsWritten) :
    n.whole.filter (· != ',') = n.whole.filter isDigit := by
  refine List.filter_congr fun c hc => ?_
  have hwhole := h.whole c hc
  rw [isWhole, Bool.or_eq_true, beq_iff_eq] at hwhole
  rcases hwhole with hdigit | rfl
  · rw [hdigit, bne_iff_ne]
    rintro rfl
    exact absurd hdigit (by decide)
  · rfl

theorem IsWritten.value?_eq_some (h : n.IsWritten) (hx : n.value? = some x) :
    ∃ m k, x = Float.ofScientific m true k ∧ m < 10 ^ n.wholeDigits * 10 ^ k := by
  have hdigits (c : Char) (hc : c ∈ n.whole.filter isDigit) : isDigit c := (List.mem_filter.1 hc).2
  have hwhole := h.filter_whole
  have hgroups := h.groups
  obtain ⟨whole, groups⟩ := n
  simp only at hwhole hdigits hgroups
  rw [wholeDigits, List.countP_eq_length_filter]
  match groups, hgroups with
  | [], _ =>
      obtain rfl : _ = x := Option.some.inj hx
      refine ⟨_, 0, ofScientific_whole _, ?_⟩
      simp only [hwhole]
      rw [pow_zero, Nat.mul_one]
      exact digitsValue_lt hdigits
  | [fraction], hgroups =>
      obtain rfl : _ = x := Option.some.inj hx
      have hfraction := (hgroups fraction List.mem_cons_self).2
      refine ⟨_, _, rfl, ?_⟩
      simp only [List.filter_append, hwhole, filter_of_isDigit hfraction]
      rw [← pow_add, ← List.length_append]
      refine digitsValue_lt fun c hc => ?_
      exact (List.mem_append.1 hc).elim (hdigits c) (hfraction c)
  | _ :: _ :: _, _ => cases hx

theorem IsWritten.isNaN (h : n.IsWritten) (hx : n.value? = some x) : x.isNaN = false := by
  obtain ⟨m, k, rfl, -⟩ := h.value?_eq_some hx
  exact (isOrdered_fraction m k).isNaN

/-- A numeral of at most 308 digits is not too large. -/
theorem IsWritten.isFinite (h : n.IsWritten) (hx : n.value? = some x)
    (hshort : n.wholeDigits ≤ 308) :
    x.isFinite = true := by
  obtain ⟨m, k, rfl, hm⟩ := h.value?_eq_some hx
  rw [isFinite_fraction]
  exact hm.trans_le (Nat.mul_le_mul_right _ (tenPow_lt_overflow hshort).le)

end Numeral

/-! ### Where the numerals stand -/

variable {s t rest : List Char} {x : Float}

def Shortens (t : Step) : Prop := ∀ s rest, t s = some rest → rest <:+ s

theorem trimStart_suffix (s : List Char) : trimStart s <:+ s := List.dropWhile_suffix isBlank

theorem Shortens.bind {t u : Step} (ht : Shortens t) (hu : Shortens u) :
    Shortens fun s => (t s).bind u := by
  intro s rest h
  obtain ⟨middle, hmiddle, hrest⟩ := Option.bind_eq_some_iff.1 h
  exact (hu middle rest hrest).trans (ht s middle hmiddle)

theorem Shortens.or {t u : Step} (ht : Shortens t) (hu : Shortens u) :
    Shortens fun s => (t s).or (u s) := by
  intro s rest h
  rcases Option.or_eq_some_iff.1 h with h | ⟨-, h⟩
  · exact ht s rest h
  · exact hu s rest h

theorem Shortens.behindBlanks {t : Step} (ht : Shortens t) : Shortens fun s => t (trimStart s) :=
  fun s rest h => (ht _ rest h).trans (trimStart_suffix s)

theorem Shortens.getD {t : Step} (ht : Shortens t) (h : rest <:+ s) : (t s).getD rest <:+ s := by
  cases hs : t s with
  | none => exact h
  | some u => exact ht s u hs

theorem shortens_take? (p : Char → Bool) : Shortens (take? p) := by
  intro s rest h
  obtain ⟨c, rfl, -⟩ := take?_eq_some h
  exact List.suffix_cons c rest

theorem shortens_solid? (p : Char → Bool) : Shortens (solid? p) := (shortens_take? p).behindBlanks

theorem shortens_dropName? (name : List Char) : Shortens (dropName? name) := by
  induction name with
  | nil =>
      intro s rest h
      obtain rfl := Option.some.inj h
      exact List.suffix_refl s
  | cons a name ih =>
      intro s rest h
      obtain ⟨c, u, rfl, -, hu⟩ := dropName?_cons_eq_some h
      exact (ih u rest hu).trans (List.suffix_cons c u)

theorem shortens_opening? : Shortens opening? := (shortens_solid? _).bind (shortens_solid? _)

theorem shortens_percent? : Shortens percent? := shortens_solid? _

theorem shortens_closing? : Shortens closing? := shortens_solid? _

theorem shortens_levelWord? : Shortens levelWord? :=
  (shortens_dropName? _).or ((shortens_dropName? _).or (shortens_dropName? _))

theorem shortens_squareMark? : Shortens squareMark? :=
  (shortens_take? _).or ((shortens_take? _).bind (shortens_solid? _))

theorem shortens_perLevel? : Shortens perLevel? :=
  (shortens_dropName? "per".toList).behindBlanks.bind
    ((shortens_take? isBlank).bind (shortens_dropName? "level".toList).behindBlanks)

theorem shortens_cappedAt? : Shortens cappedAt? :=
  (shortens_dropName? "capped".toList).bind
    ((shortens_take? isBlank).bind (shortens_dropName? "at".toList).behindBlanks)

theorem shortens_capWord? : Shortens capWord? := by
  intro s rest h
  rw [capWord?] at h
  cases hmax : dropName? "max".toList s with
  | none =>
      simp only [hmax] at h
      exact shortens_cappedAt? s rest h
  | some u =>
      simp only [hmax, Option.some.injEq] at h
      subst h
      exact ((shortens_dropName? _).getD (List.suffix_refl u)).trans (shortens_dropName? _ s u hmax)

theorem skipMark_suffix (mark : Char) (s : List Char) : skipMark mark s <:+ s :=
  (trimStart_suffix _).trans ((shortens_solid? _).getD (trimStart_suffix s))

theorem marker?_suffix {m : Marker} (h : marker? s = some (m, rest)) : rest <:+ s := by
  rw [marker?] at h
  cases htimes : times? s with
  | none =>
      simp only [htimes] at h
      obtain ⟨u, hu, heq⟩ := Option.bind_eq_some_iff.1 h
      obtain ⟨-, rfl⟩ := Prod.mk.inj (Option.some.inj heq)
      exact shortens_perLevel? s u hu
  | some u =>
      simp only [htimes] at h
      obtain ⟨v, hv, heq⟩ := Option.bind_eq_some_iff.1 h
      have hsuffix : v <:+ s :=
        (shortens_levelWord?.behindBlanks u v hv).trans (shortens_solid? _ s u htimes)
      cases hsquare : squareMark? (trimStart v) with
      | none =>
          simp only [hsquare] at heq
          obtain ⟨-, rfl⟩ := Prod.mk.inj (Option.some.inj heq)
          exact hsuffix
      | some w =>
          simp only [hsquare] at heq
          obtain ⟨-, rfl⟩ := Prod.mk.inj (Option.some.inj heq)
          exact (shortens_squareMark?.behindBlanks v w hsquare).trans hsuffix

/-- The value of a numeral that stands in `s`. -/
def IsNumberIn (s : List Char) (x : Float) : Prop :=
  ∃ n : Numeral, n.IsWritten ∧ n.text <:+: s ∧ n.value? = some x

theorem IsNumberIn.mono (h : IsNumberIn s x) (ht : s <:+ t) : IsNumberIn t x := by
  obtain ⟨n, hwritten, hstands, hx⟩ := h
  exact ⟨n, hwritten, hstands.trans ht.isInfix, hx⟩

theorem numeral?_suffix {n : Numeral} (h : numeral? s = some (n, rest)) : rest <:+ s :=
  (numeral?_eq_some h).1 ▸ List.suffix_append n.text rest

theorem isNumberIn_of_numeral? {n : Numeral} (h : numeral? s = some (n, rest))
    (hx : n.value? = some x) :
    IsNumberIn s x := by
  obtain ⟨rfl, hwritten⟩ := numeral?_eq_some h
  exact ⟨n, hwritten, (List.prefix_append n.text rest).isInfix, hx⟩

theorem growth?_eq_some {coefficient : Numeral} {m : Marker}
    (h : growth? s = some ((coefficient, m), rest)) (hx : coefficient.value? = some x) :
    rest <:+ s ∧ IsNumberIn s x := by
  obtain ⟨⟨n, u⟩, hn, h⟩ := Option.bind_eq_some_iff.1 h
  obtain ⟨⟨g, v⟩, hg, h⟩ := Option.bind_eq_some_iff.1 h
  obtain ⟨w, hw, heq⟩ := Option.bind_eq_some_iff.1 h
  obtain ⟨hpair, rfl⟩ := Prod.mk.inj (Option.some.inj heq)
  obtain ⟨rfl, rfl⟩ := Prod.mk.inj hpair
  refine ⟨?_, (isNumberIn_of_numeral? hn hx).mono (trimStart_suffix s)⟩
  calc w <:+ v := shortens_closing? v w hw
    _ <:+ (percent? u).getD u := marker?_suffix hg
    _ <:+ u := shortens_percent?.getD (List.suffix_refl u)
    _ <:+ trimStart s := numeral?_suffix hn
    _ <:+ s := trimStart_suffix s

theorem capNumeral?_eq_some {n : Numeral} (h : capNumeral? s = some n) (hx : n.value? = some x) :
    IsNumberIn s x := by
  obtain ⟨u, hu, h⟩ := Option.bind_eq_some_iff.1 h
  obtain ⟨⟨m, v⟩, hm, heq⟩ := Option.bind_eq_some_iff.1 h
  obtain rfl := Option.some.inj heq
  refine (isNumberIn_of_numeral? hm hx).mono ?_
  exact (skipMark_suffix ':' u).trans ((shortens_capWord? _ u hu).trans (skipMark_suffix '(' s))

end Fragment

namespace Formula

open Fragment

variable {f : Formula} {s t rest text : List Char} {names : List (List Char)}

/-- All numbers of the formula that count stand in `s`. -/
structure IsFrom (f : Formula) (s : List Char) : Prop where
  base : IsNumberIn s f.base
  coefficient : f.hasGrowth → IsNumberIn s f.coefficient
  cap : ∀ cap, f.cap = some cap → IsNumberIn s cap

theorem IsFrom.mono (h : f.IsFrom s) (ht : s <:+ t) : f.IsFrom t :=
  ⟨h.base.mono ht, fun hgrowth => (h.coefficient hgrowth).mono ht,
    fun cap hcap => (h.cap cap hcap).mono ht⟩

theorem isFrom_of_behind? {base : Numeral} (hbase : numeral? s = some (base, t))
    (h : behind? base t = some (f, rest)) : rest <:+ s ∧ f.IsFrom s := by
  have ht := numeral?_suffix hbase
  have hflat {x : Float} (hx : base.value? = some x) :
      (flat x).IsFrom s ∧ (percentage x).IsFrom s := by
    have hin := isNumberIn_of_numeral? hbase hx
    refine ⟨⟨hin, fun h => ?_, fun cap h => ?_⟩, ⟨hin, fun h => ?_, fun cap h => ?_⟩⟩ <;> cases h
  rw [behind?] at h
  cases hopening : opening? t with
  | some u =>
      simp only [hopening] at h
      obtain ⟨⟨⟨coefficient, m⟩, v⟩, hgrowth, h⟩ := Option.bind_eq_some_iff.1 h
      obtain ⟨x, hx, h⟩ := Option.bind_eq_some_iff.1 h
      obtain ⟨y, hy, heq⟩ := Option.bind_eq_some_iff.1 h
      obtain ⟨rfl, rfl⟩ := Prod.mk.inj (Option.some.inj heq)
      obtain ⟨hv, hin⟩ := growth?_eq_some hgrowth hy
      have hu := (shortens_opening? t u hopening).trans ht
      have hbase := isNumberIn_of_numeral? hbase hx
      refine ⟨hv.trans hu, ?_⟩
      cases m <;> exact ⟨hbase, fun _ => hin.mono hu, fun cap h => by cases h⟩
  | none =>
      simp only [hopening] at h
      cases hpercent : percent? t with
      | some u =>
          simp only [hpercent] at h
          obtain ⟨x, hx, heq⟩ := Option.bind_eq_some_iff.1 h
          obtain ⟨rfl, rfl⟩ := Prod.mk.inj (Option.some.inj heq)
          exact ⟨(shortens_percent? t u hpercent).trans ht, (hflat hx).2⟩
      | none =>
          simp only [hpercent] at h
          obtain ⟨x, hx, heq⟩ := Option.bind_eq_some_iff.1 h
          obtain ⟨rfl, rfl⟩ := Prod.mk.inj (Option.some.inj heq)
          exact ⟨ht, (hflat hx).1⟩

theorem isFrom_capped (h : f.IsFrom s) (ht : t <:+ s) : (capped f t).IsFrom s := by
  rw [capped]
  cases hcap : (capNumeral? t).bind Numeral.value? with
  | none => exact h
  | some x =>
      obtain ⟨n, hn, hx⟩ := Option.bind_eq_some_iff.1 hcap
      refine ⟨h.base, h.coefficient, fun cap hcap => ?_⟩
      obtain rfl := Option.some.inj hcap
      exact (capNumeral?_eq_some hn hx).mono ht

/-- Whatever is read off a text has its numbers from there. -/
theorem isFrom_of_read (h : Fragment.read s = some f) : f.IsFrom s := by
  rw [read_eq_map, Option.map_eq_some_iff] at h
  obtain ⟨⟨g, rest⟩, h, rfl⟩ := h
  obtain ⟨⟨base, t⟩, hbase, hbehind⟩ := Option.bind_eq_some_iff.1 h
  have hlead : s.dropWhile isLead <:+ s := List.dropWhile_suffix isLead
  obtain ⟨hrest, hfrom⟩ := isFrom_of_behind? hbase hbehind
  exact isFrom_capped (hfrom.mono hlead) (hrest.trans hlead)

theorem isFrom_of_mem_findAll (h : f ∈ findAll text names) : f.IsFrom text := by
  by_cases hvalue : ∃ fragment ∈ Label.fragments text names, (Fragment.read fragment).isSome
  · obtain ⟨fragment, hfragment, hsome⟩ := hvalue
    obtain ⟨g, hread⟩ := Option.isSome_iff_exists.1 hsome
    rw [findAll_of_mem hfragment hread] at h
    obtain ⟨found, hfound, hf⟩ := mem_values.1 h
    exact (isFrom_of_read hf).mono (Label.suffix_of_mem_fragments hfound)
  · rw [findAll_of_valueless fun fragment hfragment => ?_] at h
    · split at h
      · exact isFrom_of_read (Option.mem_toList.1 h)
      · cases h
    · rw [← Option.not_isSome_iff_eq_none]
      exact fun hsome => hvalue ⟨fragment, hfragment, hsome⟩

theorem isFrom_of_listed {k : Kind} {stat : String} {forms : List Formula}
    (h : (Page.statFormulas k text).find? stat = some forms) :
    forms ≠ [] ∧ ∀ f ∈ forms, f.IsFrom text := by
  obtain ⟨hne, labels, -, rfl⟩ := (Page.find?_statFormulas k text stat forms).1 h
  exact ⟨hne, fun f hf => isFrom_of_mem_findAll hf⟩

/-! ### Values -/

/-- No more than 308 digits stand in a row, commas between them aside. -/
def HasShortNumerals (text : List Char) : Prop :=
  ∀ run : List Char, run <:+: text → (∀ c ∈ run, isWhole c) → run.countP isDigit ≤ 308

theorem hasShortNumerals_of_length (h : text.length ≤ 308) : HasShortNumerals text :=
  fun _ hrun _ => List.countP_le_length.trans (hrun.length_le.trans h)

theorem HasShortNumerals.isFinite {x : Float} (h : HasShortNumerals text) (hx : IsNumberIn text x) :
    x.isFinite = true := by
  obtain ⟨n, hwritten, hstands, hvalue⟩ := hx
  refine hwritten.isFinite hvalue (h n.whole (List.IsInfix.trans ?_ hstands) hwritten.whole)
  exact (List.prefix_append n.whole _).isInfix

/-- With its numbers from a text a formula can only lack a value by one of them that is too
large. -/
theorem IsFrom.defect?_eq_none_iff (h : f.IsFrom text) :
    f.defect? = none ↔ f.base.isFinite ∧ (f.hasGrowth → f.coefficient.isFinite) := by
  have hnan : f.cap.any Float.isNaN = false := by
    cases hcap : f.cap with
    | none => rfl
    | some cap =>
        obtain ⟨n, hwritten, -, hvalue⟩ := h.cap cap hcap
        exact hwritten.isNaN hvalue
  rw [defect?, hnan]
  cases f.base.isFinite <;> cases f.hasGrowth <;> cases f.coefficient.isFinite <;> simp

theorem IsFrom.evaluate_iff {l : Level} {n : Nat} (h : f.IsFrom text) (hl : level n = .ok l) :
    (∃ x, f.evaluate n = .ok x) ↔ f.base.isFinite ∧ (f.hasGrowth → f.coefficient.isFinite) := by
  rw [← h.defect?_eq_none_iff, evaluate_eq hl]
  cases f.defect? <;> simp

theorem IsFrom.evaluate_of_short {l : Level} {n : Nat} (h : f.IsFrom text) (hl : level n = .ok l)
    (hshort : HasShortNumerals text) : ∃ x, f.evaluate n = .ok x :=
  (h.evaluate_iff hl).2
    ⟨hshort.isFinite h.base, fun hgrowth => hshort.isFinite (h.coefficient hgrowth)⟩

end Formula

end StatAlmanac
