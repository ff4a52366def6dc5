import StatAlmanac.Proofs.Disk.Folder

/-!
Making folders. It takes nothing from a disk and adds no file to it, and where
it succeeds the path leads to a folder. In a folder that was missing there is no
file, before and after it is made.
-/

namespace StatAlmanac

namespace Disk

variable {d d' : Disk} {p q here there : Place} {x : Bytes}

/-! ### Making folders -/

/-- All that stands on a disk stands on another, which has no other files. -/
structure AddsFolders (d d' : Disk) : Prop where
  keeps : ∀ p n, d.find? p = some n → d'.find? p = some n
  noFile : ∀ p x, d'.find? p = some (.file x) → d.find? p = some (.file x)

theorem AddsFolders.refl (d : Disk) : d.AddsFolders d := ⟨fun _ _ h => h, fun _ _ h => h⟩

theorem AddsFolders.trans {d'' : Disk} (h : d.AddsFolders d') (h' : d'.AddsFolders d'') :
    d.AddsFolders d'' :=
  ⟨fun p n hp => h'.keeps p n (h.keeps p n hp), fun p x hp => h.noFile p x (h'.noFile p x hp)⟩

theorem AddsFolders.keepsFolders (h : d.AddsFolders d') : d.KeepsFolders d' :=
  fun p => h.keeps p .folder

theorem addsFolders_set {name : List Char} (h : d.find? (name :: p) = none) :
    d.AddsFolders (d.set (name :: p) .folder) := by
  constructor
  · intro q n hq
    have hne : q ≠ name :: p := fun heq => by simp [← heq, hq] at h
    rw [find?_set, if_neg hne, hq]
  · intro q x hq
    rw [find?_set] at hq
    split at hq
    · cases hq
    · exact hq

theorem find?_of_enter_missing {name : List Char} (h : d.enter here name = .error .missing) :
    turn? here name = none ∧ isTooLong name = false ∧ d.find? (name :: here) = none := by
  rw [enter] at h
  cases hturn : turn? here name with
  | some p =>
      rw [hturn] at h
      cases h
  | none =>
      rw [hturn] at h
      simp only at h
      split at h
      · cases h
      · rename_i hlong
        split at h
        · cases h
        · cases h
        · rename_i hnone
          exact ⟨rfl, by simpa using hlong, hnone⟩

theorem enter_set {name : List Char} (h : d.enter here name = .error .missing) :
    (d.set (name :: here) .folder).enter here name = .ok (name :: here) := by
  obtain ⟨hturn, hlong, -⟩ := find?_of_enter_missing h
  rw [enter, hturn]
  simp only [hlong, find?_set]
  rfl

theorem addsFolders_makeFrom (names : List (List Char)) (d : Disk) (here : Place) :
    d.AddsFolders (d.makeFrom here names).2 := by
  induction names generalizing d here with
  | nil => exact .refl d
  | cons name more ih =>
      rw [makeFrom]
      split
      · exact ih _ _
      · rename_i hmissing
        exact (addsFolders_set (find?_of_enter_missing hmissing).2.2).trans (ih _ _)
      · exact .refl d

theorem walk_makeFrom {names : List (List Char)} {d : Disk} {here : Place}
    (h : (d.makeFrom here names).1 = .ok ()) :
    ∃ p, (d.makeFrom here names).2.walk here names = .ok p := by
  induction names generalizing d here with
  | nil => exact ⟨here, rfl⟩
  | cons name more ih =>
      rw [makeFrom] at h ⊢
      cases henter : d.enter here name with
      | ok there =>
          simp only [henter] at h ⊢
          obtain ⟨p, hp⟩ := ih h
          have hkeeps := (addsFolders_makeFrom more d there).keepsFolders
          exact ⟨p, walk_cons.2 ⟨there, enter_of_keeps hkeeps henter, hp⟩⟩
      | error e =>
          cases e with
          | refused =>
              simp only [henter] at h
              cases h
          | missing =>
              simp only [henter] at h ⊢
              obtain ⟨p, hp⟩ := ih h
              have hkeeps := (addsFolders_makeFrom more (d.set (name :: here) .folder)
                (name :: here)).keepsFolders
              exact ⟨p, walk_cons.2 ⟨name :: here, enter_of_keeps hkeeps (enter_set henter), hp⟩⟩

/-- Where all folders are there, none is made. -/
theorem makeFrom_of_walk {names : List (List Char)} (h : d.walk here names = .ok p) :
    d.makeFrom here names = (.ok (), d) := by
  induction names generalizing here with
  | nil => rfl
  | cons name more ih =>
      obtain ⟨there, henter, hmore⟩ := walk_cons.1 h
      rw [makeFrom, henter]
      exact ih hmore

theorem addsFolders_makeFolders (d : Disk) (path : String) :
    d.AddsFolders (d.makeFolders path).2 := by
  rw [makeFolders]
  split
  · exact addsFolders_makeFrom _ _ _
  · exact .refl d

theorem leads_makeFolders {path : String} (h : (d.makeFolders path).1 = .ok ()) :
    ∃ p, (d.makeFolders path).2.Leads path p := by
  rw [makeFolders] at h ⊢
  cases hnames : names? path.toList with
  | none =>
      rw [hnames] at h
      cases h
  | some names =>
      rw [hnames] at h
      obtain ⟨p, hp⟩ := walk_makeFrom h
      exact ⟨p, names?_eq_some hnames ▸ hp⟩

theorem makeFolders_of_leads {path : String} (h : d.Leads path p) : (d.makeFolders path).2 = d := by
  rw [makeFolders]
  cases hnames : names? path.toList with
  | none => rfl
  | some names =>
      rw [Leads, ← names?_eq_some hnames] at h
      exact congrArg Prod.snd (makeFrom_of_walk h)

theorem read_of_addsFolders {path : String} (hd : d.AddsFolders d') (h : d.read path = .ok x) :
    d'.read path = .ok x := by
  rw [read, resolve] at h ⊢
  cases hnames : names? path.toList with
  | none =>
      rw [hnames] at h
      cases h
  | some names =>
      simp only [hnames] at h ⊢
      cases hfollow : d.follow [] names with
      | error e =>
          rw [hfollow] at h
          cases h
      | ok p =>
          rw [hfollow] at h
          rw [follow_of_keeps hd.keepsFolders hfollow]
          simp only [bind, Except.bind] at h ⊢
          cases hnode : d.find? p with
          | none =>
              rw [hnode] at h
              cases h
          | some n =>
              rw [hnode] at h
              rw [hd.keeps _ _ hnode]
              exact h

/-! ### A folder that was missing -/

/-- Everything on the disk stands in a folder. -/
def IsTree (d : Disk) : Prop := ∀ name p n, d.find? (name :: p) = some n → d.find? p = some .folder

theorem IsTree.folder_of_suffix (hd : d.IsTree) (hp : d.find? p = some .folder) (hq : q <:+ p) :
    d.find? q = some .folder := by
  induction p with
  | nil => rwa [List.suffix_nil.1 hq]
  | cons name p ih =>
      rcases List.suffix_cons_iff.1 hq with rfl | hq
      · exact hp
      · exact ih (hd _ _ _ hp) hq

theorem enter_eq_ok {name : List Char} (hback : name ≠ ['.', '.'])
    (h : d.enter here name = .ok there) :
    (turn? here name = some here ∧ there = here) ∨
      (turn? here name = none ∧ isTooLong name = false ∧ there = name :: here) := by
  rw [enter] at h
  cases hturn : turn? here name with
  | some p =>
      have hp : p = here := by
        unfold turn? at hturn
        split at hturn
        · exact (Option.some.inj hturn).symm
        · exact (Option.some.inj hturn).symm
        · exact absurd rfl hback
        · cases hturn
      rw [hturn, hp] at h
      exact .inl ⟨congrArg some hp, (Except.ok.inj h).symm⟩
  | none =>
      rw [hturn] at h
      simp only at h
      split at h
      · cases h
      · rename_i hlong
        split at h
        · exact .inr ⟨rfl, by simpa using hlong, (Except.ok.inj h).symm⟩
        · cases h
        · cases h

theorem suffix_of_walk {names : List (List Char)} (hback : ['.', '.'] ∉ names)
    (h : d.walk here names = .ok p) : here <:+ p := by
  induction names generalizing here with
  | nil =>
      cases h
      exact List.suffix_rfl
  | cons name more ih =>
      obtain ⟨there, henter, hmore⟩ := walk_cons.1 h
      have hsuffix := ih (fun hmem => hback (List.mem_cons_of_mem _ hmem)) hmore
      have hname : name ≠ ['.', '.'] := fun heq => hback (heq ▸ List.mem_cons_self)
      rcases enter_eq_ok hname henter with ⟨-, rfl⟩ | ⟨-, -, rfl⟩
      · exact hsuffix
      · exact (List.suffix_cons name here).trans hsuffix

/-- A walk that does not go back goes as well where only its end is known to be a folder. -/
theorem walk_of_isTree {names : List (List Char)} (hback : ['.', '.'] ∉ names) (hd : d.IsTree)
    (hp : d.find? p = some .folder) (h : d'.walk here names = .ok p) :
    d.walk here names = .ok p := by
  induction names generalizing here with
  | nil => exact h
  | cons name more ih =>
      obtain ⟨there, henter, hmore⟩ := walk_cons.1 h
      have hbackMore : ['.', '.'] ∉ more := fun hmem => hback (List.mem_cons_of_mem _ hmem)
      -- a place on the way is above the end of the walk, which is a folder
      have hthere := hd.folder_of_suffix hp (suffix_of_walk hbackMore hmore)
      have hname : name ≠ ['.', '.'] := fun heq => hback (heq ▸ List.mem_cons_self)
      refine walk_cons.2 ⟨there, ?_, ih hbackMore hmore⟩
      rw [enter]
      rcases enter_eq_ok hname henter with ⟨hturn, rfl⟩ | ⟨hturn, hlong, rfl⟩
      · rw [hturn]
      · simp only [hturn, hlong, hthere]
        rfl

end Disk

end StatAlmanac
