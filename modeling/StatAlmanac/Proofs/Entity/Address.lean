import StatAlmanac.Almanac
import StatAlmanac.Proofs.Entity.Segment

/-!
Addresses of pages. The path behind the base is the segment of the name, and for
champions one more. It leads to below the base unless the segment is made of
dots alone, which it is for the names that are such a word themselves.
-/

namespace StatAlmanac

open Text

namespace Address

/-- Where a segment of a path leads: a dot stays, two dots go back up, and any other goes down. -/
def enter (place : List (List Char)) (s : List Char) : List (List Char) :=
  if s = ['.'] then place
  else if s = ['.', '.'] then place.dropLast
  else place ++ [s]

def follow (place : List (List Char)) (path : List Char) : List (List Char) :=
  (path.splitOn '/').foldl enter place

def isDots (s : List Char) : Bool := s == ['.'] || s == ['.', '.']

theorem enter_of_not_isDots {s : List Char} (h : isDots s = false) (place : List (List Char)) :
    enter place s = place ++ [s] := by
  simp only [isDots, Bool.or_eq_false_iff, beq_eq_false_iff_ne] at h
  rw [enter, if_neg h.1, if_neg h.2]

theorem enter_of_isDots {s : List Char} (h : isDots s) : enter [] s = [] := by
  simp only [isDots, Bool.or_eq_true, beq_iff_eq] at h
  rcases h with rfl | rfl <;> rfl

def behind : Kind → List (List Char)
  | .champion => [['L', 'o', 'L']]
  | .item | .rune => []

theorem splitOn_path {s : List Char} (h : '/' ∉ s) (k : Kind) :
    (k.path (String.ofList s)).toList.splitOn '/' = s :: behind k := by
  have hsplit := List.splitOn_eq_singleton h
  cases k with
  | champion =>
      rw [Kind.path, String.toList_append, String.toList_ofList]
      exact (List.splitOn_append_cons_self _ _).trans (congrArg (· ++ _) hsplit)
  | item | rune => rw [Kind.path, String.toList_ofList, hsplit, behind]

theorem foldl_behind (k : Kind) (place : List (List Char)) :
    (behind k).foldl enter place = place ++ behind k := by
  cases k with
  | champion => rfl
  | item | rune => exact (List.append_nil place).symm

/-- A path leads down by each of its segments unless the first is made of dots. -/
theorem follow_path_iff {s : List Char} (h : '/' ∉ s) (k : Kind) :
    (∀ place, follow place (k.path (String.ofList s)).toList = place ++ s :: behind k) ↔
      isDots s = false := by
  have hfollow (place) :
      follow place (k.path (String.ofList s)).toList = enter place s ++ behind k := by
    rw [follow, splitOn_path h, List.foldl_cons, foldl_behind]
  constructor
  · intro hdown
    have htop := (hfollow []).symm.trans (hdown [])
    refine Bool.eq_false_iff.2 fun hdots => ?_
    rw [enter_of_isDots hdots] at htop
    exact absurd (congrArg List.length htop) (by simp)
  · intro hdots place
    rw [hfollow, enter_of_not_isDots hdots, List.append_assoc, List.singleton_append]

end Address

namespace Name

variable {s t : List Char}

theorem underscored_of_not_mem (h : ' ' ∉ s) : underscored s = s := by
  have hkeeps : ∀ c ∈ s, (if c = ' ' then '_' else c) = c := fun c hc =>
    if_neg (ne_of_mem_of_not_mem hc h)
  rw [underscored, List.map_congr_left hkeeps, List.map_id']

/-- What has no space, no underscore and nothing to escape is the segment of just those names that
are spelled so. -/
theorem segment_eq_iff (ht : ∀ c ∈ t, c ≠ ' ' ∧ c ≠ '_' ∧ isEscaped c = false) :
    segment s = t ↔ normalize s = t := by
  have hwritten : t.flatMap segmentChar = t := by
    have hpasses : ∀ c ∈ t, segmentChar c = [c] := fun c hc => by
      obtain ⟨hspace, -, hescaped⟩ := ht c hc
      rw [segmentChar, if_neg hspace, if_neg (Bool.not_eq_true _ ▸ hescaped)]
    rw [List.flatMap_def, List.map_congr_left hpasses, ← List.flatMap_def, List.flatMap_singleton']
  constructor
  · intro h
    have hbytes := congrArg Api.unescape (h.trans hwritten.symm)
    rw [unescape_segment, unescape_flatMap] at hbytes
    have hsame := Utf8.encode_injective hbytes
    rw [underscored_of_not_mem fun hspace => (ht ' ' hspace).1 rfl] at hsame
    -- a space in the name would be an underscore in its segment
    have hspace : ' ' ∉ normalize s := fun hmem =>
      (ht '_' (hsame ▸ List.mem_map.2 ⟨' ', hmem, rfl⟩)).2.1 rfl
    rwa [underscored_of_not_mem hspace] at hsame
  · intro h
    rw [segment, h, hwritten]

theorem isDots_segment_iff :
    Address.isDots (segment s) ↔ words s = [['.']] ∨ words s = [['.', '.']] := by
  rw [Address.isDots, Bool.or_eq_true, beq_iff_eq, beq_iff_eq, segment_eq_iff (by decide),
    segment_eq_iff (by decide), normalize_eq_word_iff (by decide) (by decide),
    normalize_eq_word_iff (by decide) (by decide)]

theorem segment_eq_nil_iff : segment s = [] ↔ isAllBlank s := by
  have hne (c : Char) : segmentChar c ≠ [] := by
    have hcases := segmented c
    generalize segmentChar c = written at hcases
    cases hcases <;> exact List.cons_ne_nil _ _
  rw [← normalize_eq_nil_iff, segment, List.flatMap_eq_nil_iff]
  refine ⟨fun h => List.eq_nil_iff_forall_not_mem.2 fun c hc => hne c (h c hc), fun h c hc => ?_⟩
  rw [h] at hc
  cases hc

end Name

namespace Almanac

/-- An address is the base, a segment that stays one wherever it stands, and for champions one
segment more. The segment is empty for blank names only, and it is made of dots, so that it does not
lead down, just for those names whose only word is one or two dots. -/
theorem url_below_base (a : Almanac) (k : Kind) (name : String) :
    a.url k name = a.base ++ "/" ++ String.ofList (Name.segment name.toList) ++
      (if k = .champion then "/LoL" else "") ∧
    Name.IsSegment (Name.segment name.toList) ∧
    (Name.segment name.toList = [] ↔ isAllBlank name.toList) ∧
    (Address.isDots (Name.segment name.toList) ↔
      words name.toList = [['.']] ∨ words name.toList = [['.', '.']]) ∧
    ((∀ place, Address.follow place (k.path (String.ofList (Name.segment name.toList))).toList =
        place ++ Name.segment name.toList :: Address.behind k) ↔
      Address.isDots (Name.segment name.toList) = false) := by
  have hsegment := Name.isSegment_segment name.toList
  have hslash : '/' ∉ Name.segment name.toList := fun hmem =>
    absurd (hsegment.inert '/' hmem) (by decide)
  refine ⟨?_, hsegment, Name.segment_eq_nil_iff, Name.isDots_segment_iff,
    Address.follow_path_iff hslash k⟩
  rw [url]
  cases k with
  | champion => rw [if_pos rfl, Kind.path, ← String.append_assoc]
  | item | rune => rw [if_neg (by decide), String.append_empty, Kind.path]

/-- Not every name that is not blank leads down: two dots lead back above the base. -/
theorem url_of_dots :
    ¬∀ name : String, isAllBlank name.toList = false →
      Address.isDots (Name.segment name.toList) = false := by
  intro h
  exact absurd (h ".." (by decide)) (by decide)

end Almanac

end StatAlmanac
