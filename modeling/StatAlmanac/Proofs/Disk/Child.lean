import StatAlmanac.Proofs.Disk.Making

/-!
Paths of what is directly in a folder. Whether a path is one can be told from
its names, and it leads to a place in that folder wherever the path of the
folder leads.
-/

namespace StatAlmanac

namespace Disk

variable {d : Disk} {dir path : String} {p q here : Place}

/-- The name stays where one is. -/
def stays (name : List Char) : Bool := name.isEmpty || name == ['.']

def steps (path : String) : List (List Char) :=
  (path.toList.splitOn '/').filter fun name => !stays name

def isRooted (path : String) : Bool := path.toList.head? == some '/'

/-- The path of something directly in the folder `dir`: the steps to the folder, and one into it. -/
def isChild (dir path : String) : Bool :=
  isRooted path == isRooted dir && (steps path).dropLast == steps dir &&
    (steps path).getLast?.any (· != ['.', '.'])

theorem isChild_iff : isChild dir path ↔
    isRooted path = isRooted dir ∧
      ∃ name, name ≠ ['.', '.'] ∧ steps path = steps dir ++ [name] := by
  simp only [isChild, Bool.and_eq_true, beq_iff_eq, Option.any_eq_true, bne_iff_ne, and_assoc]
  refine and_congr_right fun _ => ⟨?_, ?_⟩
  · rintro ⟨hdir, name, hname, hne⟩
    obtain ⟨front, hfront⟩ := List.getLast?_eq_some_iff.1 hname
    rw [hfront, List.dropLast_concat] at hdir
    exact ⟨name, hne, by rw [hfront, hdir]⟩
  · rintro ⟨name, hne, hsteps⟩
    rw [hsteps]
    exact ⟨List.dropLast_concat, name, List.getLast?_concat, hne⟩

/-! ### Files of the folder -/

theorem stays_iff {name : List Char} : stays name ↔ name = [] ∨ name = ['.'] := by
  simp [stays]

theorem IsPlain.not_stays {name : String} (h : IsPlain name) : stays name.toList = false := by
  rw [Bool.eq_false_iff]
  intro hstays
  have hturn := h.noTurn []
  rcases stays_iff.1 hstays with hname | hname
  · exact h.ne_nil hname
  · rw [hname] at hturn
    cases hturn

theorem isRooted_joinPath (dir : String) {name : String} (hname : IsPlain name) :
    isRooted (joinPath dir name) = isRooted dir := by
  have hhead : name.toList.head? ≠ some '/' := fun h => hname.noSlash (List.mem_of_head? h)
  by_cases hempty : dir = ""
  · have hname' : isRooted name = false := beq_eq_false_iff_ne.2 hhead
    rw [joinPath, if_pos (by simp [hempty]), hempty, hname']
    rfl
  · obtain ⟨first, rest, hdir⟩ := List.exists_cons_of_ne_nil (mt String.toList_eq_nil_iff.1 hempty)
    rw [joinPath, if_neg (by simpa [hhead] using hempty), isRooted, isRooted]
    split
    · rw [String.toList_append, hdir]
      rfl
    · rw [String.append_assoc, String.toList_append, hdir]
      rfl

theorem isChild_joinPath (dir : String) {name : String} (hname : IsPlain name) :
    isChild dir (joinPath dir name) := by
  have hne : name.toList ≠ ['.', '.'] := by
    intro heq
    have hturn := hname.noTurn []
    rw [heq] at hturn
    cases hturn
  refine isChild_iff.2 ⟨isRooted_joinPath dir hname, name.toList, hne, ?_⟩
  have hlast : [name.toList].filter (fun name => !stays name) = [name.toList] := by
    rw [List.filter_cons_of_pos (by simp [hname.not_stays]), List.filter_nil]
  rw [steps, steps]
  rcases splitOn_joinPath dir hname with hsplit | ⟨names, hdir, hsplit⟩
  · rw [hsplit, List.filter_append, hlast]
  · rw [hsplit, hdir, List.filter_append, List.filter_append, hlast]
    simp [stays]

/-! ### Where it leads -/

theorem enter_of_stays {name : List Char} (h : stays name) : d.enter here name = .ok here := by
  rcases stays_iff.1 h with rfl | rfl
  · rfl
  · rfl

theorem walk_filter (names : List (List Char)) (here : Place) :
    d.walk here (names.filter fun name => !stays name) = d.walk here names := by
  induction names generalizing here with
  | nil => rfl
  | cons name more ih =>
      by_cases hstays : stays name
      · rw [List.filter_cons_of_neg (by simp [hstays]), walk, enter_of_stays hstays]
        exact ih here
      · rw [List.filter_cons_of_pos (by simpa using hstays), walk, walk]
        cases d.enter here name with
        | error e => rfl
        | ok there => exact ih there

theorem leads_iff : d.Leads path p ↔ d.walk [] (steps path) = .ok p := by
  rw [Leads, steps, walk_filter]

theorem follow_of_stays {names : List (List Char)} (h : ∀ name ∈ names, stays name) :
    d.follow here names = .ok here := by
  induction names with
  | nil => rfl
  | cons name more ih =>
      have hname := h name List.mem_cons_self
      by_cases hmore : more = []
      · subst hmore
        rcases stays_iff.1 hname with rfl | rfl
        · rfl
        · rfl
      · rw [follow_cons hmore (enter_of_stays hname)]
        exact ih fun other hother => h other (List.mem_cons_of_mem _ hother)

theorem turn?_of_not_stays {name : List Char} (hstays : stays name = false)
    (hname : name ≠ ['.', '.']) (here : Place) : turn? here name = none := by
  unfold turn?
  split
  · cases hstays
  · cases hstays
  · exact absurd rfl hname
  · rfl

theorem follow_last {name : List Char} {more : List (List Char)} (hstays : stays name = false)
    (hname : name ≠ ['.', '.']) (hmore : ∀ other ∈ more, stays other)
    (h : d.follow here (name :: more) = .ok q) : q = name :: here := by
  have hturn := turn?_of_not_stays hstays hname here
  by_cases hnil : more = []
  · rw [hnil, follow, hturn] at h
    simp only at h
    split at h
    · cases h
    · exact (Except.ok.inj h).symm
  · obtain ⟨there, henter, hfollow⟩ := follow_cons_eq_ok hnil h
    rw [follow_of_stays hmore] at hfollow
    obtain rfl := Except.ok.inj hfollow
    rcases enter_eq_ok hname henter with ⟨hhere, -⟩ | ⟨-, -, hthere⟩
    · rw [hturn] at hhere
      cases hhere
    · exact hthere

/-- The last step is one from where a walk along the others ends. -/
theorem follow_of_filter {names front : List (List Char)} {name : List Char}
    (hnames : names.filter (fun name => !stays name) = front ++ [name]) (hname : name ≠ ['.', '.'])
    (h : d.follow here names = .ok q) : ∃ p, d.walk here front = .ok p ∧ q = name :: p := by
  induction names generalizing here front with
  | nil => simp at hnames
  | cons first more ih =>
      by_cases hstays : stays first
      · rw [List.filter_cons_of_neg (by simp [hstays])] at hnames
        have hmore : more ≠ [] := by
          rintro rfl
          simp at hnames
        rw [follow_cons hmore (enter_of_stays hstays)] at h
        exact ih hnames h
      · rw [List.filter_cons_of_pos (by simpa using hstays)] at hnames
        cases front with
        | nil =>
            -- this is the last step, and the names behind it stay
            obtain ⟨rfl, hmore⟩ := List.cons.inj hnames
            exact ⟨here, rfl, follow_last (by simpa using hstays) hname
              (fun other hother => by simpa using List.filter_eq_nil_iff.1 hmore other hother) h⟩
        | cons other front =>
            obtain ⟨rfl, hrest⟩ := List.cons.inj hnames
            have hmore : more ≠ [] := by
              rintro rfl
              simp at hrest
            obtain ⟨there, henter, hfollow⟩ := follow_cons_eq_ok hmore h
            obtain ⟨p, hwalk, hq⟩ := ih hrest hfollow
            exact ⟨p, walk_cons.2 ⟨there, henter, hwalk⟩, hq⟩

/-- A path of something in a folder leads into the folder, if anywhere. -/
theorem resolve_of_isChild (hchild : isChild dir path) (h : d.resolve path = .ok q) :
    ∃ p name, d.Leads dir p ∧ q = name :: p := by
  obtain ⟨-, name, hname, hsteps⟩ := isChild_iff.1 hchild
  rw [resolve] at h
  cases hnames : names? path.toList with
  | none =>
      rw [hnames] at h
      cases h
  | some names =>
      rw [hnames, names?_eq_some hnames] at h
      obtain ⟨p, hwalk, hq⟩ := follow_of_filter hsteps hname h
      exact ⟨p, name, leads_iff.2 hwalk, hq⟩

end Disk

end StatAlmanac
