import StatAlmanac.Proofs.Formula.Recognised
import StatAlmanac.Proofs.Formula.TextOrder

/-!
The case of the letters A to Z does not matter on a page. Every step of the pass over
a fragment takes as much off a text in lower case, and leaves the rest in lower case;
digits have no case, so the numbers are the same. Labels are found in the same places.
-/

namespace StatAlmanac

open Text Text.Reader

namespace Fragment

variable {α : Type} {p : Char → Bool} {t u : Step}

/-! ### Steps -/

/-- A step that takes as many characters off a text in lower case. -/
def IsCaselessStep (t : Step) : Prop := ∀ s, t (lowerAscii s) = (t s).map lowerAscii

theorem IsCaselessStep.bind (ht : IsCaselessStep t) (hu : IsCaselessStep u) :
    IsCaselessStep fun s => (t s).bind u := by
  intro s
  show (t (lowerAscii s)).bind u = ((t s).bind u).map lowerAscii
  rw [ht s]
  cases t s with
  | none => rfl
  | some rest => exact hu rest

theorem IsCaselessStep.or (ht : IsCaselessStep t) (hu : IsCaselessStep u) :
    IsCaselessStep fun s => (t s).or (u s) := by
  intro s
  show (t (lowerAscii s)).or (u (lowerAscii s)) = ((t s).or (u s)).map lowerAscii
  rw [ht s, hu s]
  cases t s <;> rfl

theorem IsCaselessStep.trimmed (ht : IsCaselessStep t) :
    IsCaselessStep fun s => t (trimStart s) := by
  intro s
  show t (trimStart (lowerAscii s)) = (t (trimStart s)).map lowerAscii
  rw [trimStart_lowerAscii, ht]

theorem isCaselessStep_take? (hp : IsCaseless p) : IsCaselessStep (take? p) := by
  intro s
  cases s with
  | nil => rfl
  | cons c s =>
      rw [lowerAscii_cons, take?, take?, hp c]
      split <;> rfl

theorem isCaselessStep_solid? (hp : IsCaseless p) : IsCaselessStep (solid? p) :=
  (isCaselessStep_take? hp).trimmed

theorem isCaselessStep_mark? {m : Char} (hm : m.isAlpha = false) :
    IsCaselessStep (solid? (· == m)) :=
  isCaselessStep_solid? (isCaseless_beq hm)

theorem isCaselessStep_dropName? (name : List Char) : IsCaselessStep (dropName? name) := by
  intro s
  induction name generalizing s with
  | nil => rfl
  | cons a name ih =>
      cases s with
      | nil => rfl
      | cons b s =>
          rw [lowerAscii_cons, dropName?, dropName?, sameLetter_toLower, ih]
          split <;> rfl

theorem isCaselessStep_opening? : IsCaselessStep opening? :=
  (isCaselessStep_mark? (by decide)).bind (isCaselessStep_mark? (by decide))

theorem isCaselessStep_percent? : IsCaselessStep percent? := isCaselessStep_mark? (by decide)

theorem isCaselessStep_closing? : IsCaselessStep closing? := isCaselessStep_mark? (by decide)

theorem isCaselessStep_times? : IsCaselessStep times? :=
  isCaselessStep_solid? (isCaseless_of_capitals (by decide))

theorem isCaselessStep_levelWord? : IsCaselessStep levelWord? :=
  (isCaselessStep_dropName? _).or ((isCaselessStep_dropName? _).or (isCaselessStep_dropName? _))

theorem isCaselessStep_squareMark? : IsCaselessStep squareMark? :=
  (isCaselessStep_take? (isCaseless_of_capitals (by decide))).or
    ((isCaselessStep_take? (isCaseless_beq (by decide))).bind (isCaselessStep_mark? (by decide)))

theorem isCaselessStep_perLevel? : IsCaselessStep perLevel? :=
  (isCaselessStep_dropName? _).trimmed.bind
    ((isCaselessStep_take? isCaseless_isBlank).bind (isCaselessStep_dropName? _).trimmed)

theorem isCaselessStep_cappedAt? : IsCaselessStep cappedAt? :=
  (isCaselessStep_dropName? _).bind
    ((isCaselessStep_take? isCaseless_isBlank).bind (isCaselessStep_dropName? _).trimmed)

theorem getD_lowerAscii (ht : IsCaselessStep t) (s : List Char) :
    (t (lowerAscii s)).getD (lowerAscii s) = lowerAscii ((t s).getD s) := by
  rw [ht s]
  cases t s <;> rfl

theorem isCaselessStep_capWord? : IsCaselessStep capWord? := by
  intro s
  -- The end of `maximum` may be missing, so this is no step of the kinds above.
  have himum := getD_lowerAscii (isCaselessStep_dropName? "imum".toList)
  rw [capWord?, capWord?, isCaselessStep_dropName?]
  cases dropName? "max".toList s with
  | none => exact isCaselessStep_cappedAt? s
  | some rest => exact congrArg some (himum rest)

theorem skipMark_lowerAscii {m : Char} (hm : m.isAlpha = false) (s : List Char) :
    skipMark m (lowerAscii s) = lowerAscii (skipMark m s) := by
  rw [skipMark, skipMark, isCaselessStep_mark? hm s, trimStart_lowerAscii]
  cases solid? (· == m) s with
  | none => exact trimStart_lowerAscii _
  | some rest => exact trimStart_lowerAscii rest

/-! ### Numbers -/

/-- What was read stays, and the text behind it is put in lower case. -/
def lowerRest (x : α × List Char) : α × List Char := (x.1, lowerAscii x.2)

theorem toLower_of_isWhole {c : Char} (h : isWhole c) : c.toLower = c := by
  have hrange := toNat_of_isNumeralChar (isNumeralChar_of_isWhole h)
  exact toLower_of_not_capital (by omega)

theorem isCaseless_isDigit : IsCaseless isDigit := isCaseless_of_capitals (by decide)

theorem isCaseless_isWhole : IsCaseless isWhole := isCaseless_of_capitals (by decide)

theorem isCaseless_isLead : IsCaseless isLead := isCaseless_of_capitals (by decide)

theorem takeWhile_lowerAscii (hp : IsCaseless p) (hwhole : ∀ c, p c → isWhole c) (s : List Char) :
    (lowerAscii s).takeWhile p = s.takeWhile p := by
  induction s with
  | nil => rfl
  | cons c s ih =>
      rw [lowerAscii_cons, List.takeWhile_cons, List.takeWhile_cons, hp c]
      by_cases hc : p c
      · rw [if_pos hc, if_pos hc, ih, toLower_of_isWhole (hwhole c hc)]
      · rw [if_neg hc, if_neg hc]

theorem pointGroups_lowerAscii (s : List Char) :
    pointGroups (lowerAscii s) = lowerRest (pointGroups s) := by
  fun_induction pointGroups s with
  | case1 d s hd more ih =>
      have hpoint : lowerAscii ('.' :: d :: s) = '.' :: d :: lowerAscii s := by
        rw [lowerAscii_cons, lowerAscii_cons, toLower_of_isWhole (isWhole_of_isDigit hd)]
        rfl
      rw [hpoint, pointGroups, if_pos hd, dropWhile_lowerAscii isCaseless_isDigit, ih,
        takeWhile_lowerAscii isCaseless_isDigit fun _ => isWhole_of_isDigit]
      rfl
  | case2 d s hd =>
      have hpoint : lowerAscii ('.' :: d :: s) = '.' :: d.toLower :: lowerAscii s := rfl
      rw [hpoint, pointGroups, isCaseless_isDigit d, if_neg hd]
      rfl
  | case3 s hnone =>
      have hnone' : ∀ d t, lowerAscii s = '.' :: d :: t → False := by
        intro d t h
        obtain ⟨c, s, rfl, hc, hrest⟩ := List.map_eq_cons_iff.1 h
        obtain ⟨d, t, rfl, -⟩ := List.map_eq_cons_iff.1 hrest
        exact hnone d t (congrArg (· :: d :: t) ((toLower_eq_iff (by decide)).1 hc))
      rw [pointGroups.eq_2 _ hnone']
      rfl

theorem numeral?_lowerAscii (s : List Char) :
    numeral? (lowerAscii s) = (numeral? s).map lowerRest := by
  cases s with
  | nil => rfl
  | cons d s =>
      rw [lowerAscii_cons, numeral?, numeral?, isCaseless_isDigit d]
      by_cases hd : isDigit d
      · rw [if_pos hd, if_pos hd, dropWhile_lowerAscii isCaseless_isWhole, pointGroups_lowerAscii,
          takeWhile_lowerAscii isCaseless_isWhole (fun _ => id),
          toLower_of_isWhole (isWhole_of_isDigit hd)]
        rfl
      · rw [if_neg hd, if_neg hd]
        rfl

/-! ### Fragments -/

theorem marker?_lowerAscii (s : List Char) :
    marker? (lowerAscii s) = (marker? s).map lowerRest := by
  rw [marker?, marker?, isCaselessStep_times? s]
  cases times? s with
  | none =>
      rw [isCaselessStep_perLevel? s]
      cases perLevel? s <;> rfl
  | some s =>
      simp only [Option.map_some, trimStart_lowerAscii, isCaselessStep_levelWord? (trimStart s)]
      cases levelWord? (trimStart s) with
      | none => rfl
      | some s =>
          simp only [Option.map_some, Option.bind_eq_bind, Option.bind_some, trimStart_lowerAscii,
            isCaselessStep_squareMark? (trimStart s)]
          cases squareMark? (trimStart s) <;> rfl

theorem growth?_lowerAscii (s : List Char) :
    growth? (lowerAscii s) = (growth? s).map lowerRest := by
  rw [growth?, growth?, trimStart_lowerAscii, numeral?_lowerAscii]
  cases numeral? (trimStart s) with
  | none => rfl
  | some coefficient =>
      obtain ⟨coefficient, s⟩ := coefficient
      simp only [Option.map_some, Option.bind_eq_bind, Option.bind_some, lowerRest,
        getD_lowerAscii isCaselessStep_percent?, marker?_lowerAscii]
      cases marker? ((percent? s).getD s) with
      | none => rfl
      | some marker =>
          obtain ⟨marker, s⟩ := marker
          simp only [Option.map_some, Option.bind_some, lowerRest, isCaselessStep_closing? s]
          cases closing? s <;> rfl

theorem behind?_lowerAscii (base : Numeral) (s : List Char) :
    behind? base (lowerAscii s) = (behind? base s).map lowerRest := by
  rw [behind?, behind?, isCaselessStep_opening? s]
  cases opening? s with
  | some s =>
      simp only [Option.map_some, growth?_lowerAscii]
      cases growth? s with
      | none => rfl
      | some growth =>
          obtain ⟨⟨coefficient, marker⟩, s⟩ := growth
          simp only [Option.map_some, Option.bind_eq_bind, Option.bind_some, lowerRest]
          cases base.value? <;> cases coefficient.value? <;> rfl
  | none =>
      simp only [Option.map_none, isCaselessStep_percent? s]
      cases percent? s <;> cases base.value? <;> rfl

theorem capped_lowerAscii (f : Formula) (s : List Char) : capped f (lowerAscii s) = capped f s := by
  have hcap : capNumeral? (lowerAscii s) = capNumeral? s := by
    rw [capNumeral?, capNumeral?, skipMark_lowerAscii (by decide), isCaselessStep_capWord?]
    cases capWord? (skipMark '(' s) with
    | none => rfl
    | some s =>
        simp only [Option.map_some, Option.bind_eq_bind, Option.bind_some,
          skipMark_lowerAscii (m := ':') (by decide), numeral?_lowerAscii]
        cases numeral? (skipMark ':' s) <;> rfl
  rw [capped, capped, hcap]

theorem read_lowerAscii (s : List Char) : read (lowerAscii s) = read s := by
  rw [read_eq_map, read_eq_map, dropWhile_lowerAscii isCaseless_isLead, numeral?_lowerAscii]
  cases numeral? (s.dropWhile isLead) with
  | none => rfl
  | some base =>
      obtain ⟨base, s⟩ := base
      simp only [Option.map_some, Option.bind_some, lowerRest, behind?_lowerAscii]
      cases behind? base s with
      | none => rfl
      | some x => exact congrArg some (capped_lowerAscii x.1 x.2)

end Fragment

namespace Label

variable {name text s : List Char}

/-! ### Labels -/

theorem any_toLower (c : Option Char) : (c.map Char.toLower).any isWordChar = c.any isWordChar := by
  cases c with
  | none => rfl
  | some c => exact isCaseless_isWordChar c

theorem head?_lowerAscii (s : List Char) : (lowerAscii s).head? = s.head?.map Char.toLower :=
  List.head?_map

theorem isEdge_toLower (before after : Option Char) :
    isEdge (before.map Char.toLower) (after.map Char.toLower) = isEdge before after := by
  rw [isEdge, isEdge, any_toLower, any_toLower]

theorem readName?_lowerAscii (before : Option Char) (name s : List Char) :
    readName? (before.map Char.toLower) name (lowerAscii s) =
      (readName? before name s).map fun x => (x.1.map Char.toLower, lowerAscii x.2) := by
  induction name generalizing before s with
  | nil => rfl
  | cons a name ih =>
      cases s with
      | nil => rfl
      | cons b s =>
          rw [lowerAscii_cons, readName?, readName?, sameLetter_toLower, ← Option.map_some, ih]
          split <;> rfl

theorem behind?_lowerAscii (name : List Char) (before : Option Char) (s : List Char) :
    behind? name (before.map Char.toLower) (lowerAscii s) =
      (behind? name before s).map lowerAscii := by
  have hedge : isEdge (before.map Char.toLower) (lowerAscii s).head? = isEdge before s.head? := by
    rw [head?_lowerAscii, isEdge_toLower]
  by_cases hstart : isEdge before s.head?
  · rw [behind?_of_isEdge hstart, behind?_of_isEdge (hedge.trans hstart), readName?_lowerAscii]
    cases readName? before name s with
    | none => rfl
    | some found =>
        simp only [Option.map_some, Option.bind_some, head?_lowerAscii, isEdge_toLower]
        split <;> rfl
  · rw [behind?_of_not_isEdge hstart, behind?_of_not_isEdge (hedge ▸ hstart)]
    rfl

theorem occurrences_lowerAscii (name text : List Char) :
    occurrences name (lowerAscii text) = (occurrences name text).map lowerAscii :=
  occurrencesFrom_map rfl (behind?_lowerAscii name) none 0 text

theorem clean_lowerAscii (names : List (List Char)) :
    clean (names.map lowerAscii) = (clean names).map lowerAscii := by
  have htrim : trim ∘ lowerAscii = lowerAscii ∘ trim := funext trim_lowerAscii
  have hempty : (fun name : List Char => !name.isEmpty) ∘ lowerAscii = fun name => !name.isEmpty :=
    funext fun name => congrArg not List.isEmpty_map
  rw [clean, clean, List.map_map, htrim, ← List.map_map, List.filter_map, hempty]

theorem fragments_lowerAscii (text : List Char) (names : List (List Char)) :
    fragments (lowerAscii text) (names.map lowerAscii) = (fragments text names).map lowerAscii := by
  rw [fragments, fragments, clean_lowerAscii, List.flatMap_map, List.map_flatMap]
  refine List.flatMap_congr fun name _ => ?_
  rw [occurrences_congr (map_lowerAscii isCaseless_fold name), occurrences_lowerAscii]

theorem startsWithDigit_lowerAscii (text : List Char) :
    startsWithDigit (lowerAscii text) = startsWithDigit text := by
  rw [startsWithDigit, startsWithDigit, trimStart_lowerAscii, head?_lowerAscii]
  cases (trimStart text).head? with
  | none => rfl
  | some c => exact Fragment.isCaseless_isDigit c

/-- Fragments are told apart by their lengths, which lower case keeps. -/
theorem inTextOrder_lowerAscii (text : List Char) (names : List (List Char)) :
    inTextOrder ((fragments text names).map lowerAscii) =
      (inTextOrder (fragments text names)).map lowerAscii := by
  have hsuffix : ∀ f ∈ (fragments text names).map lowerAscii, f <:+ lowerAscii text := by
    rw [← fragments_lowerAscii]
    exact fun f => suffix_of_mem_fragments
  refine eq_of_pairwise_length (pairwise_inTextOrder _) ?_ fun f => ?_
  · rw [List.pairwise_map]
    refine (pairwise_inTextOrder _).imp fun {f g} hlength => ?_
    rwa [lowerAscii, lowerAscii, List.length_map, List.length_map]
  · rw [mem_inTextOrder hsuffix, List.mem_map, List.mem_map]
    refine exists_congr fun g => and_congr_left fun _ => ?_
    exact (mem_inTextOrder fun _ => suffix_of_mem_fragments).symm

end Label

namespace Formula

open Label

variable {text other : List Char} {names others : List (List Char)}

theorem read_comp_lowerAscii : Fragment.read ∘ lowerAscii = Fragment.read :=
  funext Fragment.read_lowerAscii

theorem find?_lowerAscii (text : List Char) (names : List (List Char)) :
    find? (lowerAscii text) (names.map lowerAscii) = find? text names := by
  rw [find?, find?, fragments_lowerAscii, startsWithDigit_lowerAscii, List.isEmpty_map,
    Fragment.read_lowerAscii]
  cases fragments text names with
  | nil => rfl
  | cons fragment more =>
      show ((fragment :: more).map lowerAscii).findSome? Fragment.read = _
      rw [List.findSome?_map, read_comp_lowerAscii]

theorem findAll_lowerAscii (text : List Char) (names : List (List Char)) :
    findAll (lowerAscii text) (names.map lowerAscii) = findAll text names := by
  rw [findAll, findAll, fragments_lowerAscii, inTextOrder_lowerAscii, List.filterMap_map,
    read_comp_lowerAscii, startsWithDigit_lowerAscii, List.isEmpty_map, Fragment.read_lowerAscii]

/-- The case of the letters A to Z, in the text or in the names, changes neither the first formula
nor all formulas. -/
theorem searches_caseless (htext : lowerAscii other = lowerAscii text)
    (hnames : others.map lowerAscii = names.map lowerAscii) :
    find? other others = find? text names ∧ findAll other others = findAll text names := by
  constructor
  · rw [← find?_lowerAscii other, htext, hnames, find?_lowerAscii]
  · rw [← findAll_lowerAscii other, htext, hnames, findAll_lowerAscii]

theorem searches_caseless_health :
    lowerAscii "HEALTH 5 (+ 9 X lVL²) Max 80".toList =
      lowerAscii "health 5 (+ 9 x Lvl²) mAX 80".toList ∧
      ["hEALTH".toList].map lowerAscii = ["Health".toList].map lowerAscii ∧
      find? "HEALTH 5 (+ 9 X lVL²) Max 80".toList ["hEALTH".toList] =
        find? "health 5 (+ 9 x Lvl²) mAX 80".toList ["Health".toList] ∧
      findAll "HEALTH 5 (+ 9 X lVL²) Max 80".toList ["hEALTH".toList] =
        findAll "health 5 (+ 9 x Lvl²) mAX 80".toList ["Health".toList] :=
  ⟨by decide, by decide, searches_caseless (by decide) (by decide)⟩

end Formula

end StatAlmanac
