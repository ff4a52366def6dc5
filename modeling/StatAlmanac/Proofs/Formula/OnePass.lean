import StatAlmanac.Proofs.Formula.Numeral

/-!
Fragments are read in one pass. The five forms overlap and each has its own
freedom, but one look at what stands behind the first numeral decides between
them: a growth term, a percent sign, or neither. The pass never goes back over
text it has taken.
-/

namespace StatAlmanac.Fragment

open Text Text.Reader

/-! ### The pass

Each step gives the text behind what it takes, if it can take it. -/

def take? (p : Char → Bool) : List Char → Option (List Char)
  | c :: s => if p c then some s else none
  | [] => none

def solid? (p : Char → Bool) (s : List Char) : Option (List Char) := take? p (trimStart s)

def isLead (c : Char) : Bool := isBlank c || c == ':' || c == '='

def opening? (s : List Char) : Option (List Char) := (solid? (· == '(') s).bind (solid? (· == '+'))

def percent? (s : List Char) : Option (List Char) := solid? (· == '%') s

def closing? (s : List Char) : Option (List Char) := solid? (· == ')') s

def times? (s : List Char) : Option (List Char) := solid? (['×', 'x', 'X', '*', '·'].contains ·) s

/-- The longest of the words for a level. -/
def levelWord? (s : List Char) : Option (List Char) :=
  (dropName? "level".toList s).or ((dropName? "lvl".toList s).or (dropName? "l".toList s))

def squareMark? (s : List Char) : Option (List Char) :=
  (take? (fun c => c == '²' || c == '2') s).or ((take? (· == '^') s).bind (solid? (· == '2')))

def perLevel? (s : List Char) : Option (List Char) := do
  let s ← dropName? "per".toList (trimStart s)
  let s ← take? isBlank s
  dropName? "level".toList (trimStart s)

/-- How a growth term names the level. -/
inductive Marker where
  /-- As in `× L²`. -/
  | squared
  /-- As in `× L`. -/
  | plain
  | perLevel
  deriving DecidableEq

def Marker.form : Marker → Form
  | .squared => .quadratic
  | .plain => .linear
  | .perLevel => .perLevel

def Marker.formula : Marker → Float → Float → Formula
  | .squared => Formula.quadratic
  | .plain | .perLevel => Formula.linear

def marker? (s : List Char) : Option (Marker × List Char) :=
  match times? s with
  | some s => do
      let s ← levelWord? (trimStart s)
      match squareMark? (trimStart s) with
      | some s => return (.squared, s)
      | none => return (.plain, s)
  | none => do return (.perLevel, ← perLevel? s)

def growth? (s : List Char) : Option ((Numeral × Marker) × List Char) := do
  let (coefficient, s) ← numeral? (trimStart s)
  let (marker, s) ← marker? ((percent? s).getD s)
  return ((coefficient, marker), ← closing? s)

/-- The formula that starts with the numeral `base`, and the text behind it. An opened growth term
has to be complete. -/
def behind? (base : Numeral) (s : List Char) : Option (Formula × List Char) :=
  match opening? s with
  | some s => do
      let ((coefficient, marker), s) ← growth? s
      return (marker.formula (← base.value?) (← coefficient.value?), s)
  | none =>
      match percent? s with
      | some s => do return (.percentage (← base.value?), s)
      | none => do return (.flat (← base.value?), s)

def cappedAt? (s : List Char) : Option (List Char) := do
  let s ← dropName? "capped".toList s
  let s ← take? isBlank s
  dropName? "at".toList (trimStart s)

def capWord? (s : List Char) : Option (List Char) :=
  match dropName? "max".toList s with
  | some s => some ((dropName? "imum".toList s).getD s)
  | none => cappedAt? s

/-- Passes over blanks and a mark between them, if it is there. -/
def skipMark (mark : Char) (s : List Char) : List Char :=
  trimStart ((solid? (· == mark) s).getD (trimStart s))

def capNumeral? (s : List Char) : Option Numeral := do
  let s ← capWord? (skipMark '(' s)
  let (n, _) ← numeral? (skipMark ':' s)
  return n

def capped (f : Formula) (s : List Char) : Formula :=
  match (capNumeral? s).bind Numeral.value? with
  | some cap => f.withCap cap
  | none => f

/-- The formula of a fragment, in one pass. -/
def recognise (s : List Char) : Option Formula := do
  let (base, s) ← numeral? (s.dropWhile isLead)
  let (formula, s) ← behind? base s
  return capped formula s

/-! ### The parts of a growth term -/

variable {β : Type} {f : Unit → Reader β} {s rest : List Char}

theorem trimStart_of_solid {c : Char} (h : isBlank c = false) (s : List Char) :
    trimStart (c :: s) = c :: s :=
  List.dropWhile_cons_of_neg (by simp [h])

theorem solid?_eq_none {p : Char → Bool} {c : Char} {t : List Char} (hs : trimStart s = c :: t)
    (hc : p c = false) : solid? p s = none := by
  rw [solid?, hs, take?, hc]
  rfl

theorem skipMark_of_solid {mark c : Char} {t : List Char} (hs : trimStart s = c :: t)
    (hblank : isBlank c = false) (hmark : (c == mark) = false) : skipMark mark s = c :: t := by
  rw [skipMark, solid?_eq_none hs hmark, Option.getD_none, hs, trimStart_of_solid hblank]

theorem one_bind (p : Char → Bool) (f : Unit → Reader β) :
    (one p >>= f) = after (take? p) (f ()) := by
  funext s
  cases s with
  | nil => rfl
  | cons c s =>
      rw [one_bind_cons, after, take?]
      split <;> rfl

theorem blanks_one_bind {p : Char → Bool} (hp : ∀ c, isBlank c → p c = false)
    (f : Unit → Reader β) : (blanks >>= fun _ => one p >>= f) = after (solid? p) (f ()) := by
  rw [blanks_bind ((refuses_one hp).bind _), one_bind, after_after]
  rfl

theorem beq_of_class {p : Char → Bool} {c m : Char} (hm : p m = false) (h : p c) :
    (c == m) = false := by
  rw [beq_eq_false_iff_ne]
  rintro rfl
  rw [h] at hm
  cases hm

theorem contains_of_class {p : Char → Bool} {c : Char} {marks : List Char}
    (hmarks : ∀ m ∈ marks, p m = false) (h : p c) : marks.contains c = false := by
  apply Bool.eq_false_iff.2
  intro hmem
  rw [hmarks c (List.contains_iff_mem.1 hmem)] at h
  cases h

theorem blanks_mark_bind {m : Char} (hm : isBlank m = false) (f : Unit → Reader β) :
    (blanks >>= fun _ => one (· == m) >>= f) = after (solid? (· == m)) (f ()) :=
  blanks_one_bind (fun _ => beq_of_class hm) f

theorem blanks_word_bind {a : Char} {name : List Char} (ha : isBlank (fold a) = false)
    (f : Unit → Reader β) :
    (blanks >>= fun _ => word (a :: name) >>= f) =
      after (fun s => dropName? (a :: name) (trimStart s)) (f ()) := by
  have hrefuses : (word (a :: name)).Refuses isBlank :=
    refuses_word name fun _ => not_sameLetter_of_isBlank ha
  rw [blanks_bind (hrefuses.bind _), word_bind, after_after]
  rfl

theorem percentSign_bind (f : Unit → Reader β) : (percentSign >>= f) = after percent? (f ()) := by
  rw [percentSign, bind_assoc]
  exact blanks_mark_bind (by decide) f

theorem closing_bind (f : Unit → Reader β) : (closing >>= f) = after closing? (f ()) := by
  rw [closing, bind_assoc]
  exact blanks_mark_bind (by decide) f

theorem growthOpening_bind (f : Unit → Reader β) :
    (growthOpening >>= f) = after opening? (f ()) := by
  simp only [growthOpening, bind_assoc]
  rw [blanks_mark_bind (by decide), blanks_mark_bind (by decide), after_after]
  rfl

theorem times_bind (h : (f ()).Refuses isBlank) :
    (times >>= f) = after (fun s => (times? s).map trimStart) (f ()) := by
  simp only [times, bind_assoc]
  rw [blanks_one_bind fun _ => contains_of_class (by decide), blanks_bind h, after_after]
  congr 1
  funext s
  exact (Option.map_eq_bind ..).symm

theorem dropName?_cons_eq_some {a : Char} {name : List Char}
    (h : dropName? (a :: name) s = some rest) :
    ∃ c t, s = c :: t ∧ sameLetter a c ∧ dropName? name t = some rest := by
  cases s with
  | nil => cases h
  | cons c t =>
      rw [dropName?] at h
      split at h
      · rename_i hc
        exact ⟨c, t, rfl, hc, h⟩
      · cases h

def goesOn (c : Char) : Bool := sameLetter 'e' c || sameLetter 'v' c

/-- The longest word for a level is taken, if what follows does not go on with it. -/
theorem levelWord_bind (h : (f ()).Refuses goesOn) :
    (levelWord >>= f) = after levelWord? (f ()) := by
  funext s
  have hwords : (levelWord >>= f) s = after (dropName? "level".toList) (f ()) s ++
      (after (dropName? "lvl".toList) (f ()) s ++ after (dropName? "l".toList) (f ()) s) := by
    rw [levelWord, orElse_bind, orElse_bind, word_bind, word_bind, word_bind]
  have hletter {c d : Char} {t : List Char} (hc : sameLetter 'l' c) (hd : goesOn d) :
      after (dropName? "l".toList) (f ()) (c :: d :: t) = [] := by
    rw [after_some (if_pos hc : dropName? "l".toList (c :: d :: t) = some (d :: t))]
    exact h d t hd
  rw [hwords]
  cases hlevel : dropName? "level".toList s with
  | some rest =>
      have hword : levelWord? s = some rest := by rw [levelWord?, hlevel, Option.some_or]
      obtain ⟨c, t, rfl, hc, ht⟩ := dropName?_cons_eq_some hlevel
      obtain ⟨d, t, rfl, hd, -⟩ := dropName?_cons_eq_some ht
      have hlvl : dropName? "lvl".toList (c :: d :: t) = none := by
        have hv : sameLetter 'v' d = false := sameLetter_eq_false (by decide) hd
        show (if sameLetter 'l' c then if sameLetter 'v' d then _ else none else none) = none
        rw [hv, if_neg Bool.false_ne_true, ite_self]
      rw [after_some hlevel, after_none hlvl, hletter hc (Bool.or_eq_true_iff.2 (.inl hd)),
        after_some hword]
      exact List.append_nil _
  | none =>
      cases hlvl : dropName? "lvl".toList s with
      | some rest =>
          have hword : levelWord? s = some rest := by
            rw [levelWord?, hlevel, hlvl, Option.none_or, Option.some_or]
          obtain ⟨c, t, rfl, hc, ht⟩ := dropName?_cons_eq_some hlvl
          obtain ⟨d, t, rfl, hd, -⟩ := dropName?_cons_eq_some ht
          rw [after_none hlevel, after_some hlvl, hletter hc (Bool.or_eq_true_iff.2 (.inr hd)),
            after_some hword]
          exact List.append_nil _
      | none =>
          have hword : levelWord? s = dropName? "l".toList s := by
            rw [levelWord?, hlevel, hlvl, Option.none_or, Option.none_or]
          rw [after_none hlevel, after_none hlvl, after, after, hword]
          rfl

theorem squareMark_bind (f : Unit → Reader β) :
    (squareMark >>= f) = after squareMark? (f ()) := by
  funext s
  have hmarks : (squareMark >>= f) s = after (take? (· == '²')) (f ()) s ++
      (after (fun s => (take? (· == '^') s).bind (solid? (· == '2'))) (f ()) s ++
        after (take? (· == '2')) (f ()) s) := by
    simp only [squareMark, orElse_bind, bind_assoc]
    rw [blanks_mark_bind (by decide), one_bind, one_bind, one_bind, after_after]
  rw [hmarks, after, after, after, after, squareMark?]
  cases s with
  | nil => rfl
  | cons c t =>
      -- the first character tells which of the marks it can be
      by_cases hsign : c = '²'
      · subst hsign
        exact List.append_nil _
      · by_cases htwo : c = '2'
        · subst htwo
          rfl
        · by_cases hcaret : c = '^'
          · subst hcaret
            exact List.append_nil _
          · simp only [take?, beq_eq_false_iff_ne.2 hsign, beq_eq_false_iff_ne.2 htwo,
              beq_eq_false_iff_ne.2 hcaret]
            rfl

/-! ### The growth term -/

def Marker.reader : Marker → Reader Unit
  | .squared => do
      times
      levelWord
      blanks
      squareMark
  | .plain => do
      times
      levelWord
  | .perLevel => do
      blanks
      word "per".toList
      one isBlank
      blanks
      word "level".toList

def Marker.take? : Marker → List Char → Option (List Char)
  | .squared, s => (times? s).bind fun s =>
      (levelWord? (trimStart s)).bind fun s => squareMark? (trimStart s)
  | .plain, s => (times? s).bind fun s => levelWord? (trimStart s)
  | .perLevel, s => perLevel? s

theorem not_isBlank_of_goesOn {c : Char} (h : goesOn c) : isBlank c = false := by
  rcases Bool.or_eq_true_iff.1 h with h | h
  · exact not_isBlank_of_sameLetter (by decide) h
  · exact not_isBlank_of_sameLetter (by decide) h

theorem refuses_squareMark {p : Char → Bool}
    (h : ∀ m ∈ ['²', '^', '2'], ∀ c, p c → (c == m) = false) : squareMark.Refuses p :=
  (refuses_one (h '²' (by decide))).orElse
    (((refuses_one (h '^' (by decide))).bind _).orElse (refuses_one (h '2' (by decide))))

theorem refuses_levelWord : levelWord.Refuses isBlank := by
  have hl : ∀ c, isBlank c → sameLetter 'l' c = false := fun _ =>
    not_sameLetter_of_isBlank (by decide)
  exact (refuses_word _ hl).orElse ((refuses_word _ hl).orElse (refuses_word _ hl))

theorem refuses_closing_bind (f : Unit → Reader β) : (closing >>= f).Refuses goesOn := by
  have hmark : ∀ c, goesOn c → (c == ')') = false := fun _ => beq_of_class (by decide)
  exact (refuses_blanks_bind (f := fun _ => one (· == ')')) (fun _ => not_isBlank_of_goesOn)
    (refuses_one hmark)).bind f

theorem Marker.reader_bind (m : Marker) (f : Unit → Reader β) :
    (m.reader >>= fun _ => closing >>= f) = after (fun s => (m.take? s).bind closing?) (f ()) := by
  cases m with
  | squared =>
      have hblank : (squareMark >>= fun _ => closing >>= f).Refuses isBlank :=
        (refuses_squareMark fun m hm c => beq_of_class (by revert m; decide)).bind _
      have hgoesOn : (squareMark >>= fun _ => closing >>= f).Refuses goesOn :=
        (refuses_squareMark fun m hm c => beq_of_class (by revert m; decide)).bind _
      have hlevel := refuses_blanks_bind (f := fun _ => squareMark >>= fun _ => closing >>= f)
        (fun _ => not_isBlank_of_goesOn) hgoesOn
      simp only [reader, bind_assoc]
      rw [times_bind (refuses_levelWord.bind _), levelWord_bind hlevel, blanks_bind hblank,
        squareMark_bind, closing_bind, after_after, after_after, after_after, after_after]
      congr 1
      funext s
      simp [take?, Option.bind_assoc, Option.bind_map]
  | plain =>
      simp only [reader, bind_assoc]
      rw [times_bind (refuses_levelWord.bind _), levelWord_bind (refuses_closing_bind f),
        closing_bind, after_after, after_after]
      congr 1
      funext s
      simp [take?, Option.bind_assoc, Option.bind_map]
  | perLevel =>
      have hper : "per".toList = 'p' :: "er".toList := rfl
      have hlevel : "level".toList = 'l' :: "evel".toList := rfl
      simp only [reader, bind_assoc]
      rw [hper, hlevel, blanks_word_bind (by decide), one_bind,
        blanks_word_bind (by decide), closing_bind, after_after, after_after, after_after]
      congr 1
      funext s
      simp [take?, perLevel?, hper, hlevel, Option.bind_assoc]

end StatAlmanac.Fragment
