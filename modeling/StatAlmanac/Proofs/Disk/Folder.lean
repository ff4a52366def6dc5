import StatAlmanac.Disk

/-!
Files of one folder. A path that leads to a folder goes on leading there while
the folders of the disk stay, so what is done to one file of the folder leaves
the others as they were.
-/

namespace StatAlmanac

namespace Disk

variable {d d' : Disk} {p here there : Place} {n : Node} {x : Bytes}

/-! ### What stands where -/

theorem lookup_erase (d : Disk) (p q : Place) :
    (d.erase p).nodes.lookup q = if q = p then none else d.nodes.lookup q := by
  rw [erase]
  induction d.nodes with
  | nil => simp
  | cons e rest ih =>
      by_cases he : e.1 = p
      · rw [List.filter_cons_of_neg (by simpa using he), ih, ← he]
        by_cases hq : q = e.1
        · rw [if_pos hq, if_pos hq]
        · rw [if_neg hq, if_neg hq, List.lookup_cons, beq_eq_false_iff_ne.2 hq]
      · rw [List.filter_cons_of_pos (by simpa using he), List.lookup_cons, List.lookup_cons, ih]
        by_cases hq : q = e.1
        · rw [hq, beq_self_eq_true]
          exact (if_neg he).symm
        · rw [beq_eq_false_iff_ne.2 hq]

theorem find?_erase (d : Disk) (name : List Char) (p q : Place) :
    (d.erase (name :: p)).find? q = if q = name :: p then none else d.find? q := by
  rw [find?, find?, lookup_erase]
  by_cases hq : q = []
  · subst hq
    rfl
  · rw [if_neg hq, if_neg hq]

theorem find?_set (d : Disk) (name : List Char) (p q : Place) (n : Node) :
    (d.set (name :: p) n).find? q = if q = name :: p then some n else d.find? q := by
  by_cases hq : q = name :: p
  · rw [if_pos hq, hq]
    exact List.lookup_cons_self
  · have herase := find?_erase d name p q
    rw [if_neg hq] at herase ⊢
    rw [← herase, find?, find?, set, List.lookup_cons, beq_eq_false_iff_ne.2 hq]

def KeepsFolders (d d' : Disk) : Prop := ∀ p, d.find? p = some .folder → d'.find? p = some .folder

theorem KeepsFolders.trans {d'' : Disk} (h : d.KeepsFolders d') (h' : d'.KeepsFolders d'') :
    d.KeepsFolders d'' :=
  fun p hp => h' p (h p hp)

theorem keepsFolders_set {name : List Char} (h : d.find? (name :: p) ≠ some .folder) :
    d.KeepsFolders (d.set (name :: p) n) := by
  intro q hq
  rw [find?_set]
  by_cases hqp : q = name :: p
  · exact absurd (hqp ▸ hq) h
  · rw [if_neg hqp, hq]

theorem keepsFolders_erase {name : List Char} (h : d.find? (name :: p) ≠ some .folder) :
    d.KeepsFolders (d.erase (name :: p)) := by
  intro q hq
  rw [find?_erase]
  by_cases hqp : q = name :: p
  · exact absurd (hqp ▸ hq) h
  · rw [if_neg hqp, hq]

/-! ### Walks

A walk enters every name of a path, the last one too. -/

def walk (d : Disk) (here : Place) : List (List Char) → Except DiskFault Place
  | [] => .ok here
  | name :: more => do d.walk (← d.enter here name) more

theorem enter_of_keeps {name : List Char} (hd : d.KeepsFolders d')
    (h : d.enter here name = .ok there) : d'.enter here name = .ok there := by
  rw [enter] at h ⊢
  cases hturn : turn? here name with
  | some p => rwa [hturn] at h
  | none =>
      rw [hturn] at h
      simp only at h ⊢
      split at h
      · cases h
      · rename_i hlong
        rw [if_neg hlong]
        split at h
        · rename_i hfolder
          rw [hd _ hfolder]
          exact h
        · cases h
        · cases h

theorem walk_cons {name : List Char} {more : List (List Char)} :
    d.walk here (name :: more) = .ok p ↔
      ∃ there, d.enter here name = .ok there ∧ d.walk there more = .ok p := by
  rw [walk]
  cases d.enter here name with
  | error e => simp [bind, Except.bind]
  | ok there => simp [bind, Except.bind]

theorem walk_of_keeps {names : List (List Char)} (hd : d.KeepsFolders d')
    (h : d.walk here names = .ok p) : d'.walk here names = .ok p := by
  induction names generalizing here with
  | nil => exact h
  | cons name more ih =>
      obtain ⟨there, henter, hmore⟩ := walk_cons.1 h
      exact walk_cons.2 ⟨there, enter_of_keeps hd henter, ih hmore⟩

theorem walk_append {names more : List (List Char)} :
    d.walk here (names ++ more) = .ok p ↔
      ∃ there, d.walk here names = .ok there ∧ d.walk there more = .ok p := by
  induction names generalizing here with
  | nil =>
      refine ⟨fun h => ⟨here, rfl, h⟩, ?_⟩
      rintro ⟨there, hthere, h⟩
      cases hthere
      exact h
  | cons name names ih =>
      rw [List.cons_append, walk_cons]
      constructor
      · rintro ⟨next, henter, h⟩
        obtain ⟨there, hnames, hmore⟩ := ih.1 h
        exact ⟨there, walk_cons.2 ⟨next, henter, hnames⟩, hmore⟩
      · rintro ⟨there, hnames, hmore⟩
        obtain ⟨next, henter, hnext⟩ := walk_cons.1 hnames
        exact ⟨next, henter, ih.2 ⟨there, hnext, hmore⟩⟩

theorem follow_cons {name : List Char} {more : List (List Char)} (h : more ≠ [])
    (henter : d.enter here name = .ok there) :
    d.follow here (name :: more) = d.follow there more := by
  rw [follow]
  · rw [henter]
    rfl
  · exact h

theorem follow_cons_eq_ok {name : List Char} {more : List (List Char)} (hmore : more ≠ [])
    (h : d.follow here (name :: more) = .ok q) :
    ∃ there, d.enter here name = .ok there ∧ d.follow there more = .ok q := by
  rw [follow] at h
  · cases henter : d.enter here name with
    | error e =>
        rw [henter] at h
        cases h
    | ok there =>
        rw [henter] at h
        exact ⟨there, rfl, h⟩
  · exact hmore

/-- A path whose last name is not entered is walked up to there. -/
theorem follow_of_walk {names : List (List Char)} (h : d.walk here names = .ok p)
    (last : List Char) : d.follow here (names ++ [last]) = d.follow p [last] := by
  induction names generalizing here with
  | nil =>
      cases h
      rfl
  | cons name names ih =>
      obtain ⟨there, henter, hnames⟩ := walk_cons.1 h
      have hmore : names ++ [last] ≠ [] := by simp
      rw [List.cons_append, follow_cons hmore henter, ih hnames]

theorem walk_of_follow {names : List (List Char)} {last : List Char}
    (h : d.follow here (names ++ [last]) = .ok p) : ∃ there, d.walk here names = .ok there := by
  induction names generalizing here with
  | nil => exact ⟨here, rfl⟩
  | cons name names ih =>
      have hmore : names ++ [last] ≠ [] := by simp
      obtain ⟨next, henter, hfollow⟩ := follow_cons_eq_ok hmore h
      obtain ⟨there, hthere⟩ := ih hfollow
      exact ⟨there, walk_cons.2 ⟨next, henter, hthere⟩⟩

theorem follow_of_keeps {names : List (List Char)} (hd : d.KeepsFolders d')
    (h : d.follow here names = .ok p) : d'.follow here names = .ok p := by
  rcases List.eq_nil_or_concat names with rfl | ⟨front, last, rfl⟩
  · exact h
  · rw [List.concat_eq_append] at h ⊢
    obtain ⟨there, hwalk⟩ := walk_of_follow h
    rw [follow_of_walk hwalk] at h
    rw [follow_of_walk (walk_of_keeps hd hwalk)]
    exact h

/-! ### The files of a folder -/

def Leads (d : Disk) (path : String) (p : Place) : Prop :=
  d.walk [] (path.toList.splitOn '/') = .ok p

theorem Leads.of_keeps {path : String} (h : d.Leads path p) (hd : d.KeepsFolders d') :
    d'.Leads path p :=
  walk_of_keeps hd h

theorem turn?_eq_none {name : List Char} (hlen : 2 < name.length) (here : Place) :
    turn? here name = none := by
  unfold turn?
  split
  · simp at hlen
  · simp at hlen
  · simp at hlen
  · rfl

/-- A name that stands for a file of the folder it is used in. -/
structure IsPlain (name : String) : Prop where
  noSlash : '/' ∉ name.toList
  noTurn : ∀ here, turn? here name.toList = none

theorem IsPlain.ne_nil {name : String} (h : IsPlain name) : name.toList ≠ [] := by
  intro hnil
  have hturn := h.noTurn []
  rw [hnil] at hturn
  cases hturn

/-- The system takes the path of this name in this folder. -/
def fits (dir name : String) : Bool :=
  (names? (joinPath dir name).toList).isSome && !isTooLong name.toList

/-- The path of a file of a folder: the names of the folder, which a slash at its end does not add
to, and the name. -/
theorem splitOn_joinPath (dir : String) {name : String} (hname : IsPlain name) :
    (joinPath dir name).toList.splitOn '/' = dir.toList.splitOn '/' ++ [name.toList] ∨
      ∃ names, dir.toList.splitOn '/' = names ++ [[]] ∧
        (joinPath dir name).toList.splitOn '/' = names ++ [name.toList] := by
  have hsplit := List.splitOn_eq_singleton hname.noSlash
  have hhead : name.toList.head? ≠ some '/' := fun h => hname.noSlash (List.mem_of_head? h)
  rw [joinPath]
  by_cases hempty : dir = ""
  · right
    subst hempty
    refine ⟨[], rfl, ?_⟩
    rw [if_pos (by simp), hsplit]
    rfl
  · rw [if_neg (by simpa [hhead] using hempty)]
    by_cases hlast : dir.toList.getLast? = some '/'
    · right
      obtain ⟨front, hfront⟩ := List.getLast?_eq_some_iff.1 hlast
      rw [if_pos hlast, String.toList_append, hfront]
      refine ⟨front.splitOn '/', ?_, ?_⟩
      · rw [List.splitOn_append_cons_self, List.splitOn_nil]
      · rw [List.append_assoc, List.singleton_append, List.splitOn_append_cons_self, hsplit]
    · left
      rw [if_neg hlast, String.toList_append, String.toList_append, List.append_assoc]
      exact (List.splitOn_append_cons_self _ _).trans (congrArg _ hsplit)

/-- Only a path that can be split is taken, and that is how it is split. -/
theorem names?_eq_some {path : List Char} {names : List (List Char)}
    (h : names? path = some names) :
    names = path.splitOn '/' := by
  rw [names?] at h
  split at h
  · cases h
  · exact (Option.some.inj h).symm

theorem resolve_joinPath {dir name : String} (hd : d.Leads dir p) (hname : IsPlain name) :
    d.resolve (joinPath dir name) =
      if fits dir name then .ok (name.toList :: p) else .error .refused := by
  have hfollow : d.follow [] ((joinPath dir name).toList.splitOn '/') =
      d.follow p [name.toList] := by
    rcases splitOn_joinPath dir hname with h | ⟨names, hdir, h⟩
    · rw [h, follow_of_walk hd]
    · rw [Leads, hdir] at hd
      -- the empty name behind the slash turns to where one is
      obtain ⟨there, hthere, hturn⟩ := walk_append.1 hd
      have hp : there = p := by simpa [walk, enter, turn?, bind, Except.bind] using hturn
      rw [h, follow_of_walk hthere, hp]
  rw [resolve, fits]
  cases hnames : names? (joinPath dir name).toList with
  | none => rw [Option.isSome_none, Bool.false_and, if_neg Bool.false_ne_true]
  | some names =>
      simp only [names?_eq_some hnames, hfollow, follow, hname.noTurn, Option.isSome_some,
        Bool.true_and]
      cases isTooLong name.toList <;> rfl

def contentAt (d : Disk) (p : Place) : Except DiskFault Bytes :=
  match d.find? p with
  | some (.file content) => .ok content
  | some .folder => .error .refused
  | none => .error .missing

theorem read_joinPath {dir name : String} (hd : d.Leads dir p) (hname : IsPlain name) :
    d.read (joinPath dir name) =
      if fits dir name then d.contentAt (name.toList :: p) else .error .refused := by
  rw [read, resolve_joinPath hd hname]
  cases fits dir name <;> rfl

theorem read_joinPath_congr {dir name : String} (hd : d.Leads dir p) (hd' : d'.Leads dir p)
    (hname : IsPlain name) (h : d'.find? (name.toList :: p) = d.find? (name.toList :: p)) :
    d'.read (joinPath dir name) = d.read (joinPath dir name) := by
  rw [read_joinPath hd' hname, read_joinPath hd hname, contentAt, contentAt, h]

theorem write_joinPath {dir name : String} (hd : d.Leads dir p) (hname : IsPlain name)
    (h : d.write (joinPath dir name) x = .ok d') :
    fits dir name ∧ d.find? (name.toList :: p) ≠ some .folder ∧
      d' = d.set (name.toList :: p) (.file x) := by
  rw [write, resolve_joinPath hd hname] at h
  cases hfits : fits dir name with
  | false =>
      rw [hfits] at h
      cases h
  | true =>
      rw [hfits, if_pos rfl] at h
      simp only [bind, Except.bind] at h
      split at h
      · cases h
      · rename_i hfolder
        exact ⟨rfl, hfolder, (Except.ok.inj h).symm⟩

theorem remove_joinPath {dir name : String} (hd : d.Leads dir p) (hname : IsPlain name)
    (h : d.remove (joinPath dir name) = .ok d') :
    d.find? (name.toList :: p) ≠ some .folder ∧ d' = d.erase (name.toList :: p) := by
  rw [remove, resolve_joinPath hd hname] at h
  cases hfits : fits dir name with
  | false =>
      rw [hfits] at h
      cases h
  | true =>
      rw [hfits, if_pos rfl] at h
      simp only [bind, Except.bind] at h
      split at h
      · rename_i hfile
        exact ⟨by simp [hfile], (Except.ok.inj h).symm⟩
      · cases h
      · cases h

theorem rename_joinPath {dir source target : String} (hd : d.Leads dir p)
    (hsource : IsPlain source) (htarget : IsPlain target)
    (hfile : d.find? (source.toList :: p) = some (.file x))
    (h : d.rename (joinPath dir source) (joinPath dir target) = .ok d') :
    fits dir target ∧ d.find? (target.toList :: p) ≠ some .folder ∧
      d' = (d.erase (source.toList :: p)).set (target.toList :: p) (.file x) := by
  rw [rename, resolve_joinPath hd hsource, resolve_joinPath hd htarget] at h
  cases hsourceFits : fits dir source with
  | false =>
      rw [hsourceFits] at h
      cases h
  | true =>
      cases htargetFits : fits dir target with
      | false =>
          rw [hsourceFits, htargetFits] at h
          cases h
      | true =>
          rw [hsourceFits, htargetFits, if_pos rfl, if_pos rfl] at h
          cases htargetNode : d.find? (target.toList :: p) with
          | none =>
              simp only [bind, Except.bind, hfile, htargetNode] at h
              exact ⟨rfl, nofun, (Except.ok.inj h).symm⟩
          | some n =>
              cases n with
              | folder =>
                  simp only [bind, Except.bind, hfile, htargetNode] at h
                  cases h
              | file y =>
                  simp only [bind, Except.bind, hfile, htargetNode] at h
                  exact ⟨rfl, nofun, (Except.ok.inj h).symm⟩

theorem place_ne {a b : String} (h : a ≠ b) : a.toList :: p ≠ b.toList :: p :=
  fun heq => h (String.toList_injective (List.cons.inj heq).1)

theorem find?_of_read {dir name : String} (hd : d.Leads dir p) (hname : IsPlain name)
    (h : d.read (joinPath dir name) = .ok x) : d.find? (name.toList :: p) = some (.file x) := by
  rw [read_joinPath hd hname, contentAt] at h
  split at h
  · split at h
    · rename_i hfile
      rw [hfile, Except.ok.inj h]
    · cases h
    · cases h
  · cases h

theorem written_joinPath {dir name : String} (hd : d.Leads dir p) (hname : IsPlain name)
    (h : d.write (joinPath dir name) x = .ok d') :
    d'.Leads dir p ∧ d'.read (joinPath dir name) = .ok x ∧
      ∀ other, IsPlain other → other ≠ name →
        d'.read (joinPath dir other) = d.read (joinPath dir other) := by
  obtain ⟨hfits, hfolder, rfl⟩ := write_joinPath hd hname h
  have hd' := hd.of_keeps (keepsFolders_set (n := .file x) hfolder)
  refine ⟨hd', ?_, fun other hother hne => read_joinPath_congr hd hd' hother ?_⟩
  · rw [read_joinPath hd' hname, if_pos hfits, contentAt, find?_set, if_pos rfl]
  · rw [find?_set, if_neg (place_ne hne)]

theorem moved_joinPath {dir source target : String} (hd : d.Leads dir p)
    (hsource : IsPlain source) (htarget : IsPlain target) (hne : source ≠ target)
    (hread : d.read (joinPath dir source) = .ok x)
    (h : d.rename (joinPath dir source) (joinPath dir target) = .ok d') :
    d'.Leads dir p ∧ d'.read (joinPath dir target) = .ok x ∧
      ∀ other, IsPlain other → other ≠ source → other ≠ target →
        d'.read (joinPath dir other) = d.read (joinPath dir other) := by
  have hfile := find?_of_read hd hsource hread
  obtain ⟨hfits, hfolder, rfl⟩ := rename_joinPath hd hsource htarget hfile h
  -- neither the file at the old name nor one at the new was a folder, so the path still leads there
  have hold : d.find? (source.toList :: p) ≠ some .folder := by simp [hfile]
  have hnew : (d.erase (source.toList :: p)).find? (target.toList :: p) ≠ some .folder := by
    rw [find?_erase, if_neg (place_ne hne.symm)]
    exact hfolder
  have hd' := (hd.of_keeps (keepsFolders_erase hold)).of_keeps
    (keepsFolders_set (n := .file x) hnew)
  refine ⟨hd', ?_, fun other hother hs ht => read_joinPath_congr hd hd' hother ?_⟩
  · rw [read_joinPath hd' htarget, if_pos hfits, contentAt, find?_set, if_pos rfl]
  · rw [find?_set, if_neg (place_ne ht), find?_erase, if_neg (place_ne hs)]

/-- A file that is written beside its place and moved there: it reads as written, and of the files
of the folder no other has changed. -/
theorem replace_joinPath {dir beside name : String} {d₁ : Disk} (hd : d.Leads dir p)
    (hbeside : IsPlain beside) (hname : IsPlain name) (hne : beside ≠ name)
    (hwrite : d.write (joinPath dir beside) x = .ok d₁)
    (hrename : d₁.rename (joinPath dir beside) (joinPath dir name) = .ok d') :
    d'.Leads dir p ∧ d'.read (joinPath dir name) = .ok x ∧
      ∀ other, IsPlain other → other ≠ beside → other ≠ name →
        d'.read (joinPath dir other) = d.read (joinPath dir other) := by
  obtain ⟨hd₁, hread, hwritten⟩ := written_joinPath hd hbeside hwrite
  obtain ⟨hd', hmoved, hothers⟩ := moved_joinPath hd₁ hbeside hname hne hread hrename
  refine ⟨hd', hmoved, fun other hother hb hn => ?_⟩
  exact (hothers other hother hb hn).trans (hwritten other hother hb)

theorem removed_joinPath {dir name : String} (hd : d.Leads dir p) (hname : IsPlain name)
    (h : d.remove (joinPath dir name) = .ok d') :
    d'.Leads dir p ∧ ∀ other, IsPlain other → other ≠ name →
      d'.read (joinPath dir other) = d.read (joinPath dir other) := by
  obtain ⟨hfolder, rfl⟩ := remove_joinPath hd hname h
  have hd' := hd.of_keeps (keepsFolders_erase hfolder)
  refine ⟨hd', fun other hother hne => read_joinPath_congr hd hd' hother ?_⟩
  rw [find?_erase, if_neg (place_ne hne)]

theorem read_removed_joinPath {dir name : String} (hd : d.Leads dir p) (hname : IsPlain name)
    (h : d.remove (joinPath dir name) = .ok d') : ∃ e, d'.read (joinPath dir name) = .error e := by
  obtain ⟨hd', -⟩ := removed_joinPath hd hname h
  obtain ⟨-, rfl⟩ := remove_joinPath hd hname h
  rw [read_joinPath hd' hname]
  split
  · exact ⟨.missing, by rw [contentAt, find?_erase, if_pos rfl]⟩
  · exact ⟨.refused, rfl⟩

theorem leads_of_read {dir name : String} (hname : IsPlain name)
    (h : d.read (joinPath dir name) = .ok x) :
    ∃ p, d.Leads dir p ∧ d.find? (name.toList :: p) = some (.file x) := by
  have hleads : ∃ p, d.Leads dir p := by
    rw [read, resolve] at h
    cases hnames : names? (joinPath dir name).toList with
    | none =>
        rw [hnames] at h
        cases h
    | some names =>
        simp only [hnames] at h
        cases hfollow : d.follow [] names with
        | error e =>
            rw [hfollow] at h
            cases h
        | ok q =>
            rw [names?_eq_some hnames] at hfollow
            rcases splitOn_joinPath dir hname with hsplit | ⟨front, hdir, hsplit⟩
            · exact walk_of_follow (hsplit ▸ hfollow)
            · obtain ⟨p, hp⟩ := walk_of_follow (hsplit ▸ hfollow)
              refine ⟨p, ?_⟩
              rw [Leads, hdir]
              exact walk_append.2 ⟨p, hp, rfl⟩
  obtain ⟨p, hp⟩ := hleads
  exact ⟨p, hp, find?_of_read hp hname h⟩

end Disk

end StatAlmanac
