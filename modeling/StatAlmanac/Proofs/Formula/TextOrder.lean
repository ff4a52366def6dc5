import StatAlmanac.Proofs.Formula.Lines
import StatAlmanac.Proofs.Text.LowerAscii

/-!
All formulas as a table in the order of the text. Its places are the ends of the
occurrences that the searches for the names find, each place once; which name found
one does not matter, so neither the order of the names nor their number does.
-/

namespace StatAlmanac

open Text

namespace Label

variable {name other text front s fragment : List Char} {names others : List (List Char)}
  {start e : Nat} {ends ends' : List Nat}

/-! ### The search for one name -/

/-- `name` stands in the text from `start` on as a whole word, case aside. -/
def StandsAt (name text : List Char) (start : Nat) : Prop :=
  ∃ front word back, text = front ++ word ++ back ∧ front.length = start ∧
    word.map fold = name.map fold ∧ isEdge front.getLast? (word ++ back).head? ∧
    isEdge (front ++ word).getLast? back.head?

/-- The ends of what a search finds from `start` on. It takes the first place where the name stands
and goes on behind the name. -/
inductive Search (name text : List Char) : Nat → List Nat → Prop
  | done {start : Nat} : (∀ i, start ≤ i → ¬StandsAt name text i) → Search name text start []
  | found {start i : Nat} {ends : List Nat} : start ≤ i → StandsAt name text i →
      (∀ j, start ≤ j → j < i → ¬StandsAt name text j) → Search name text (i + name.length) ends →
      Search name text start ((i + name.length) :: ends)

theorem Search.unique (h : Search name text start ends) (h' : Search name text start ends') :
    ends = ends' := by
  induction h generalizing ends' with
  | done hnone =>
      cases h' with
      | done => rfl
      | found hle hstands => exact absurd hstands (hnone _ hle)
  | @found start i ends hle hstands hfirst _ ih =>
      cases h' with
      | done hnone => exact absurd hstands (hnone i hle)
      | @found _ j _ hle' hstands' hfirst' hmore =>
          have hplace : i = j := by
            rcases Nat.lt_trichotomy i j with hlt | heq | hgt
            · exact absurd hstands (hfirst' i hle hlt)
            · exact heq
            · exact absurd hstands' (hfirst j hle' hgt)
          subst hplace
          rw [ih hmore]

theorem Search.of_succ (hnot : ¬StandsAt name text start) (h : Search name text (start + 1) ends) :
    Search name text start ends := by
  have hlater {i : Nat} (hle : start ≤ i) (hstands : StandsAt name text i) : start + 1 ≤ i := by
    rcases Nat.eq_or_lt_of_le hle with rfl | hlt
    · exact absurd hstands hnot
    · exact hlt
  cases h with
  | done hnone => exact .done fun i hle hstands => hnone i (hlater hle hstands) hstands
  | found hle hstands hfirst hmore =>
      exact .found (Nat.le_of_succ_le hle) hstands
        (fun j hj hlt hstands => hfirst j (hlater hj hstands) hlt hstands) hmore

theorem StandsAt.add_length_le (h : StandsAt name text start) :
    start + name.length ≤ text.length := by
  obtain ⟨front, word, back, rfl, rfl, hword, -⟩ := h
  rw [← length_eq_of_fold hword, List.length_append, List.length_append]
  exact Nat.le_add_right _ _

theorem standsAt_iff : StandsAt name (front ++ s) front.length ↔
    ∃ rest, behind? name front.getLast? s = some rest := by
  have hlast (word : List Char) : lastOf front.getLast? word = (front ++ word).getLast? := by
    rw [lastOf, List.getLast?_append]
  constructor
  · rintro ⟨front', word, back, htext, hlength, hword, hstart, hend⟩
    rw [List.append_assoc] at htext
    obtain ⟨rfl, rfl⟩ := List.append_inj htext hlength.symm
    exact ⟨back, behind?_eq_some.2 ⟨word, rfl, hword, hstart, hlast word ▸ hend⟩⟩
  · rintro ⟨rest, hrest⟩
    obtain ⟨word, rfl, hword, hstart, hend⟩ := behind?_eq_some.1 hrest
    exact ⟨front, word, rest, (List.append_assoc _ _ _).symm, rfl, hword, hstart, hlast word ▸ hend⟩

/-- Where a fragment of the text starts, which is where the name in front of it ends. -/
def endOf (text fragment : List Char) : Nat := text.length - fragment.length

/-- What is found behind `front`, of which the next `skip` characters belong to the last
name found. -/
theorem search_occurrencesFrom (hname : name ≠ []) (front s : List Char) (skip : Nat) :
    Search name (front ++ s) (front.length + skip)
      ((occurrencesFrom name front.getLast? skip s).map (endOf (front ++ s))) := by
  -- The first character goes over to `front`, so that the text as a whole stays the same.
  have hpos := List.length_pos_iff.2 hname
  induction s generalizing front skip with
  | nil =>
      refine .done fun i hle hstands => ?_
      have hbound := hstands.add_length_le
      rw [List.append_nil] at hbound
      omega
  | cons c s ih =>
      have hmore := ih (front ++ [c])
      rw [List.append_assoc, List.singleton_append, List.getLast?_concat, List.length_append,
        List.length_singleton] at hmore
      cases skip with
      | succ skip =>
          rw [occurrencesFrom]
          have hskip := hmore skip
          rwa [Nat.add_assoc, Nat.add_comm 1] at hskip
      | zero =>
          rw [occurrencesFrom]
          cases hbehind : behind? name front.getLast? (c :: s) with
          | none =>
              refine .of_succ ?_ (hmore 0)
              rw [Nat.add_zero, standsAt_iff, hbehind]
              rintro ⟨rest, hrest⟩
              cases hrest
          | some rest =>
              -- One character of the name is taken with this step and the others are skipped.
              have hend : endOf (front ++ c :: s) rest = front.length + name.length := by
                have hlength := length_of_behind? hbehind
                rw [endOf, List.length_append]
                omega
              have hskip := hmore (name.length - 1)
              rw [Nat.add_assoc, Nat.add_sub_cancel' hpos] at hskip
              show Search _ _ _ (endOf (front ++ c :: s) rest :: _)
              rw [hend]
              exact .found (Nat.le_refl _) (standsAt_iff.2 ⟨rest, hbehind⟩)
                (fun j hle hlt => absurd hle (Nat.not_le.2 hlt)) hskip

theorem search_occurrences (hname : name ≠ []) (text : List Char) :
    Search name text 0 ((occurrences name text).map (endOf text)) :=
  search_occurrencesFrom hname [] text 0

/-! ### The places of all names -/

/-- An occurrence of one of the names, found by the search for this name, ends here. -/
def IsEnd (names : List (List Char)) (text : List Char) (e : Nat) : Prop :=
  ∃ name ∈ clean names, ∃ ends, Search name text 0 ends ∧ e ∈ ends

theorem mem_clean : name ∈ clean names ↔ (∃ n ∈ names, trim n = name) ∧ name ≠ [] := by
  rw [clean, List.mem_filter, List.mem_map, Bool.not_eq_true', List.isEmpty_eq_false_iff]

theorem isEnd_iff :
    IsEnd names text e ↔ ∃ fragment ∈ fragments text names, endOf text fragment = e := by
  have hsearch {name : List Char} (hname : name ∈ clean names) : Search name text 0 _ :=
    search_occurrences (mem_clean.1 hname).2 text
  constructor
  · rintro ⟨name, hname, ends, hends, he⟩
    rw [hends.unique (hsearch hname)] at he
    obtain ⟨fragment, hfragment, hend⟩ := List.mem_map.1 he
    exact ⟨fragment, List.mem_flatMap.2 ⟨name, hname, hfragment⟩, hend⟩
  · rintro ⟨fragment, hfragment, hend⟩
    obtain ⟨name, hname, hfragment⟩ := List.mem_flatMap.1 hfragment
    exact ⟨name, hname, _, hsearch hname, List.mem_map.2 ⟨fragment, hfragment, hend⟩⟩

theorem drop_endOf (h : fragment <:+ text) : text.drop (endOf text fragment) = fragment :=
  (List.suffix_iff_eq_drop.1 h).symm

def endsInOrder (text : List Char) (names : List (List Char)) : List Nat :=
  (inTextOrder (fragments text names)).map (endOf text)

theorem suffix_of_mem_inTextOrder (h : fragment ∈ inTextOrder (fragments text names)) :
    fragment <:+ text :=
  suffix_of_mem_fragments ((mem_inTextOrder fun _ => suffix_of_mem_fragments).1 h)

theorem mem_endsInOrder : e ∈ endsInOrder text names ↔ IsEnd names text e := by
  rw [isEnd_iff, endsInOrder, List.mem_map]
  refine exists_congr fun fragment => and_congr_left fun _ => ?_
  exact mem_inTextOrder fun _ => suffix_of_mem_fragments

theorem pairwise_endsInOrder (text : List Char) (names : List (List Char)) :
    (endsInOrder text names).Pairwise (· < ·) := by
  rw [endsInOrder, List.pairwise_map]
  refine (pairwise_inTextOrder _).imp_of_mem fun {f g} hf hg hlength => ?_
  have hle := (suffix_of_mem_inTextOrder hf).length_le
  rw [endOf, endOf]
  omega

/-- A name within another one ends where the other ends. -/
example :
    endsInOrder "Attack range 525\nRange 125".toList
      ["Range".toList, "Attack range".toList] = [12, 22] := by
  decide

theorem filterMap_endsInOrder (text : List Char) (names : List (List Char)) :
    ((endsInOrder text names).filterMap fun e => Fragment.read (text.drop e)) =
      (inTextOrder (fragments text names)).filterMap Fragment.read := by
  rw [endsInOrder, List.filterMap_map]
  refine List.filterMap_congr fun fragment hfragment => ?_
  rw [Function.comp_apply, drop_endOf (suffix_of_mem_inTextOrder hfragment)]

/-! ### Names that find the same -/

theorem inTextOrder_congr {found found' : List (List Char)} (hfound : ∀ f ∈ found, f <:+ text)
    (hmem : ∀ f, f ∈ found ↔ f ∈ found') : inTextOrder found = inTextOrder found' := by
  have hfound' : ∀ f ∈ found', f <:+ text := fun f hf => hfound f ((hmem f).2 hf)
  refine eq_of_pairwise_length (pairwise_inTextOrder _) (pairwise_inTextOrder _) fun f => ?_
  rw [mem_inTextOrder hfound, mem_inTextOrder hfound', hmem]

/-- Of a name only what is left without regard to case counts. -/
theorem readName?_congr (h : name.map fold = other.map fold) (before : Option Char)
    (s : List Char) :
    readName? before name s = readName? before other s := by
  ext found
  obtain ⟨last, rest⟩ := found
  rw [readName?_eq_some, readName?_eq_some, h]

theorem behind?_congr (h : name.map fold = other.map fold) (before : Option Char) (s : List Char) :
    behind? name before s = behind? other before s := by
  rw [behind?, behind?, readName?_congr h]

theorem occurrencesFrom_map {f : Char → Char} (hlength : other.length = name.length)
    (hbehind : ∀ before s, behind? other (before.map f) (s.map f) =
      (behind? name before s).map (List.map f))
    (before : Option Char) (skip : Nat) (s : List Char) :
    occurrencesFrom other (before.map f) skip (s.map f) =
      (occurrencesFrom name before skip s).map (List.map f) := by
  induction s generalizing before skip with
  | nil => rw [List.map_nil, occurrencesFrom, occurrencesFrom, List.map_nil]
  | cons c s ih =>
      have hmore (skip : Nat) := ih (some c) skip
      have hfront := hbehind before (c :: s)
      rw [Option.map_some] at hmore
      rw [List.map_cons] at hfront ⊢
      cases skip with
      | succ skip => rw [occurrencesFrom, occurrencesFrom, hmore]
      | zero =>
          rw [occurrencesFrom, occurrencesFrom, hfront, hlength, hmore, hmore]
          cases behind? name before (c :: s) <;> rfl

theorem occurrences_congr (h : name.map fold = other.map fold) (text : List Char) :
    occurrences name text = occurrences other text := by
  have hbehind (before : Option Char) (s : List Char) :
      behind? name (before.map id) (s.map id) = (behind? other before s).map (List.map id) := by
    rw [Option.map_id, List.map_id, List.map_id_fun, Option.map_id, behind?_congr h]
    rfl
  have hmap := occurrencesFrom_map (length_eq_of_fold h) hbehind none 0 text
  rwa [List.map_id, List.map_id_fun, List.map_id] at hmap

theorem mem_fragments : fragment ∈ fragments text names ↔
    ∃ name ∈ names, trim name ≠ [] ∧ fragment ∈ occurrences (trim name) text := by
  rw [fragments, List.mem_flatMap]
  constructor
  · rintro ⟨_, hname, hfragment⟩
    obtain ⟨⟨name, hmem, rfl⟩, hne⟩ := mem_clean.1 hname
    exact ⟨name, hmem, hne, hfragment⟩
  · rintro ⟨name, hmem, hne, hfragment⟩
    exact ⟨trim name, mem_clean.2 ⟨⟨name, hmem, rfl⟩, hne⟩, hfragment⟩

theorem map_fold_trim (h : lowerAscii other = lowerAscii name) :
    (trim other).map fold = (trim name).map fold := by
  have htrim : lowerAscii (trim other) = lowerAscii (trim name) := by
    rw [← trim_lowerAscii, ← trim_lowerAscii, h]
  rw [← map_lowerAscii isCaseless_fold, htrim, map_lowerAscii isCaseless_fold]

end Label

namespace Formula

open Label

variable {text : List Char} {names others : List (List Char)}

theorem findAll_congr (hmem : ∀ f, f ∈ fragments text names ↔ f ∈ fragments text others)
    (hempty : names.isEmpty = others.isEmpty) : findAll text names = findAll text others := by
  rw [findAll, findAll, inTextOrder_congr (fun _ => suffix_of_mem_fragments) hmem, hempty]

theorem findAll_perm (h : others.Perm names) : findAll text others = findAll text names := by
  refine findAll_congr (fun f => ?_) ?_
  · rw [mem_fragments, mem_fragments]
    exact exists_congr fun name => and_congr_left fun _ => h.mem_iff
  · rw [Bool.eq_iff_iff, List.isEmpty_iff, List.isEmpty_iff]
    exact ⟨fun hnil => (hnil ▸ h).symm.eq_nil, fun hnil => (hnil ▸ h).eq_nil⟩

/-- A name more changes nothing if it is one of the names in other letters. -/
theorem findAll_cons {name other : List Char} (hname : name ∈ names)
    (h : lowerAscii other = lowerAscii name) :
    findAll text (other :: names) = findAll text names := by
  have hfold := map_fold_trim h
  refine findAll_congr (fun f => ?_) ?_
  · rw [mem_fragments, mem_fragments, List.exists_mem_cons_iff]
    refine or_iff_right_of_imp ?_
    rintro ⟨hne, hf⟩
    refine ⟨name, hname, ?_, occurrences_congr hfold text ▸ hf⟩
    intro hnil
    rw [hnil, List.map_nil, List.map_eq_nil_iff] at hfold
    exact hne hfold
  · cases names with
    | nil => cases hname
    | cons => rfl

/-- All formulas stand in the order of the ends of the labels that are found, one at most for each
end. If none of these has a value, and there are names, a text that starts with a digit is read
itself. The order of the names does not matter, nor does a name that is there already, in the same
letters or in other case. -/
theorem findAll_table (text : List Char) (names : List (List Char)) :
    (∃ ends : List Nat, ends.Pairwise (· < ·) ∧ (∀ e, e ∈ ends ↔ IsEnd names text e) ∧
      let values := ends.filterMap fun e => Fragment.read (text.drop e)
      findAll text names =
        if values.isEmpty && !names.isEmpty && startsWithDigit text then (Fragment.read text).toList
        else values) ∧
    (∀ others, others.Perm names → findAll text others = findAll text names) ∧
    ∀ name ∈ names, ∀ other, lowerAscii other = lowerAscii name →
      ∀ others, others.Perm (other :: names) → findAll text others = findAll text names := by
  refine ⟨⟨endsInOrder text names, pairwise_endsInOrder text names, fun e => mem_endsInOrder, ?_⟩,
    fun others => findAll_perm, fun name hname other hother others hperm => ?_⟩
  · dsimp only
    rw [filterMap_endsInOrder, findAll]
    cases (inTextOrder (fragments text names)).filterMap Fragment.read with
    | nil => rfl
    | cons => rfl
  · exact (findAll_perm hperm).trans (findAll_cons hname hother)

theorem findAll_table_range :
    "Range".toList ∈ ["Attack range".toList, "Range".toList] ∧
      lowerAscii "RANGE".toList = lowerAscii "Range".toList ∧
      ["Range".toList, "RANGE".toList, "Attack range".toList].Perm
        ["RANGE".toList, "Attack range".toList, "Range".toList] ∧
      findAll "Attack range 525\nRange 125".toList
        ["Range".toList, "RANGE".toList, "Attack range".toList] =
        findAll "Attack range 525\nRange 125".toList ["Attack range".toList, "Range".toList] :=
  ⟨by decide, by decide, by decide,
    (findAll_table _ ["Attack range".toList, "Range".toList]).2.2 "Range".toList
      (by decide) "RANGE".toList
      (by decide) _ (by decide)⟩

end Formula

end StatAlmanac
