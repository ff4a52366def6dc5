import StatAlmanac.Proofs.Disk.Making

/-!
Disks that differ in files only. Where two disks differ at a few places and
neither has a folder at any of them, every path leads to the same place on both,
and a file at another place reads the same on both.
-/

namespace StatAlmanac

namespace Disk

variable {d d' d'' : Disk} {p q : Place} {ps qs : List Place} {path : String} {x : Bytes}

/-! ### Reading -/

theorem toOption_eq_some {ε α : Type} {e : Except ε α} {a : α} :
    e.toOption = some a ↔ e = .ok a := by
  cases e with
  | error e => exact ⟨nofun, nofun⟩
  | ok b => exact ⟨fun h => congrArg _ (Option.some.inj h), fun h => congrArg _ (Except.ok.inj h)⟩

def file? (d : Disk) (p : Place) : Option Bytes :=
  match d.find? p with
  | some (.file content) => some content
  | _ => none

theorem file?_eq_some : d.file? p = some x ↔ d.find? p = some (.file x) := by
  rw [file?]
  split
  · rename_i content hnode
    rw [hnode]
    simp
  · rename_i hnode
    exact ⟨nofun, fun h => absurd h (hnode x)⟩

theorem toOption_read (d : Disk) (path : String) :
    (d.read path).toOption = (d.resolve path).toOption.bind d.file? := by
  rw [read]
  cases d.resolve path with
  | error e => rfl
  | ok p =>
      simp only [bind, Except.bind, Except.toOption, Option.bind_some, file?]
      cases d.find? p with
      | none => rfl
      | some n => cases n <;> rfl

theorem read_of_resolve (h : d.resolve path = .ok p) : (d.read path).toOption = d.file? p := by
  rw [toOption_read, h]
  rfl

theorem resolve_of_keeps (hd : d.KeepsFolders d') (h : d.resolve path = .ok p) :
    d'.resolve path = .ok p := by
  rw [resolve] at h ⊢
  cases hnames : names? path.toList with
  | none =>
      rw [hnames] at h
      cases h
  | some names =>
      rw [hnames] at h
      exact follow_of_keeps hd h

theorem AddsFolders.file?_eq (h : d.AddsFolders d') (p : Place) : d'.file? p = d.file? p := by
  ext x
  simp only [file?_eq_some]
  exact ⟨h.noFile p x, h.keeps p (.file x)⟩

/-- What stands behind the last separator is part of the last piece. -/
theorem splitOn_append {a : Char} {ending : List Char} (h : a ∉ ending) (front : List Char) :
    ∃ pieces last, (front ++ ending).splitOn a = pieces ++ [last ++ ending] := by
  induction front with
  | nil => exact ⟨[], [], List.splitOn_eq_singleton h⟩
  | cons c front ih =>
      obtain ⟨pieces, last, hsplit⟩ := ih
      rw [List.cons_append, List.splitOn_cons_eq_if_modifyHead, hsplit]
      by_cases hc : c == a
      · exact ⟨[] :: pieces, last, if_pos hc⟩
      · rw [if_neg hc]
        cases pieces with
        | nil => exact ⟨[], c :: last, rfl⟩
        | cons piece pieces => exact ⟨(c :: piece) :: pieces, last, rfl⟩

/-- A path with an ending that makes no turn leads to a name with this ending. -/
theorem name_of_resolve {ending : List Char} (hslash : '/' ∉ ending) (hlen : 2 < ending.length)
    (hpath : ending <:+ path.toList) (h : d.resolve path = .ok p) :
    ∃ name here, p = name :: here ∧ ending <:+ name := by
  obtain ⟨front, hfront⟩ := hpath
  obtain ⟨pieces, last, hsplit⟩ := splitOn_append hslash front
  rw [hfront] at hsplit
  rw [resolve] at h
  cases hnames : names? path.toList with
  | none =>
      rw [hnames] at h
      cases h
  | some names =>
      have hfollow : d.follow [] (pieces ++ [last ++ ending]) = .ok p := by
        rw [← hsplit, ← names?_eq_some hnames]
        rwa [hnames] at h
      obtain ⟨there, hwalk⟩ := walk_of_follow hfollow
      have hname : 2 < (last ++ ending).length := by
        rw [List.length_append]
        omega
      rw [follow_of_walk hwalk, follow, turn?_eq_none hname] at hfollow
      simp only at hfollow
      split at hfollow
      · cases hfollow
      · exact ⟨last ++ ending, there, (Except.ok.inj hfollow).symm, last, rfl⟩

def meet (d : Disk) (path other : String) : Bool :=
  match d.resolve path, d.resolve other with
  | .ok p, .ok q => p = q
  | _, _ => false

theorem meet_eq_true {other : String} (h : d.resolve other = .ok q) :
    d.meet path other ↔ d.resolve path = .ok q := by
  rw [meet, h]
  cases d.resolve path with
  | error e => simp
  | ok p => simp

/-! ### Differing in files -/

/-- The disks differ at these places at most, where neither has a folder. -/
structure DiffersAt (ps : List Place) (d d' : Disk) : Prop where
  same : ∀ q, q ∉ ps → d'.find? q = d.find? q
  noFolder : ∀ q ∈ ps, d.find? q ≠ some .folder ∧ d'.find? q ≠ some .folder

namespace DiffersAt

theorem refl (d : Disk) : DiffersAt [] d d := ⟨fun _ _ => rfl, nofun⟩

theorem symm (h : DiffersAt ps d d') : DiffersAt ps d' d :=
  ⟨fun q hq => (h.same q hq).symm, fun q hq => (h.noFolder q hq).symm⟩

theorem keepsFolders (h : DiffersAt ps d d') : d.KeepsFolders d' := by
  intro q hq
  rw [h.same q fun hmem => (h.noFolder q hmem).1 hq, hq]

theorem trans (h : DiffersAt ps d d') (h' : DiffersAt qs d' d'') : DiffersAt (ps ++ qs) d d'' := by
  refine ⟨fun q hq => ?_, fun q hq => ?_⟩
  · obtain ⟨hps, hqs⟩ := not_or.1 (mt List.mem_append.2 hq)
    rw [h'.same q hqs, h.same q hps]
  · -- a folder at one of the places would have been there all along
    have hmiddle : d'.find? q ≠ some .folder := by
      rcases List.mem_append.1 hq with hps | hqs
      · exact (h.noFolder q hps).2
      · exact (h'.noFolder q hqs).1
    exact ⟨fun hfolder => hmiddle (h.keepsFolders q hfolder),
      fun hfolder => hmiddle (h'.symm.keepsFolders q hfolder)⟩

theorem resolve_iff (h : DiffersAt ps d d') : d'.resolve path = .ok p ↔ d.resolve path = .ok p :=
  ⟨resolve_of_keeps h.symm.keepsFolders, resolve_of_keeps h.keepsFolders⟩

theorem toOption_resolve (h : DiffersAt ps d d') (path : String) :
    (d'.resolve path).toOption = (d.resolve path).toOption := by
  ext p
  simp only [toOption_eq_some, h.resolve_iff]

theorem file?_eq (h : DiffersAt ps d d') (hq : q ∉ ps) : d'.file? q = d.file? q := by
  rw [file?, file?, h.same q hq]

theorem toOption_read (h : DiffersAt ps d d') (hpath : ∀ q ∈ ps, d.resolve path ≠ .ok q) :
    (d'.read path).toOption = (d.read path).toOption := by
  rw [Disk.toOption_read, Disk.toOption_read, h.toOption_resolve]
  cases hresolve : d.resolve path with
  | error e => rfl
  | ok q => exact h.file?_eq fun hmem => hpath q hmem hresolve

end DiffersAt

/-! ### Changes -/

theorem differsAt_set (h : d.find? p ≠ some .folder) (x : Bytes) :
    DiffersAt [p] d (d.set p (.file x)) ∧ (d.set p (.file x)).file? p = some x := by
  cases p with
  | nil => exact absurd rfl h
  | cons name here =>
      have hfile : (d.set (name :: here) (.file x)).find? (name :: here) = some (.file x) := by
        rw [find?_set, if_pos rfl]
      refine ⟨⟨fun q hq => ?_, fun q hq => ?_⟩, file?_eq_some.2 hfile⟩
      · rw [find?_set, if_neg (List.ne_of_not_mem_cons hq)]
      · rw [List.mem_singleton.1 hq]
        exact ⟨h, by simp [hfile]⟩

theorem differsAt_erase (h : d.find? p ≠ some .folder) : DiffersAt [p] d (d.erase p) := by
  cases p with
  | nil => exact absurd rfl h
  | cons name here =>
      refine ⟨fun q hq => ?_, fun q hq => ?_⟩
      · rw [find?_erase, if_neg (List.ne_of_not_mem_cons hq)]
      · rw [List.mem_singleton.1 hq]
        refine ⟨h, ?_⟩
        rw [find?_erase, if_pos rfl]
        exact nofun

theorem file?_erase (h : d.find? p ≠ some .folder) : (d.erase p).file? p = none := by
  cases p with
  | nil => exact absurd rfl h
  | cons name here => rw [file?, find?_erase, if_pos rfl]

theorem differsAt_write (h : d.write path x = .ok d') :
    ∃ p, d.resolve path = .ok p ∧ DiffersAt [p] d d' ∧ d'.file? p = some x := by
  rw [write] at h
  cases hresolve : d.resolve path with
  | error e =>
      rw [hresolve] at h
      cases h
  | ok p =>
      rw [hresolve] at h
      simp only [bind, Except.bind] at h
      split at h
      · cases h
      · rename_i hfolder
        obtain rfl := Except.ok.inj h
        exact ⟨p, rfl, differsAt_set hfolder x⟩

theorem differsAt_remove (h : d.remove path = .ok d') :
    ∃ p, d.resolve path = .ok p ∧ DiffersAt [p] d d' := by
  rw [remove] at h
  cases hresolve : d.resolve path with
  | error e =>
      rw [hresolve] at h
      cases h
  | ok p =>
      rw [hresolve] at h
      simp only [bind, Except.bind] at h
      split at h
      · rename_i hfile
        obtain rfl := Except.ok.inj h
        exact ⟨p, rfl, differsAt_erase (by simp [hfile])⟩
      · cases h
      · cases h

theorem differsAt_rename {source target : String} (h : d.rename source target = .ok d') :
    ∃ p q, d.resolve source = .ok p ∧ d.resolve target = .ok q ∧ DiffersAt [p, q] d d' ∧
      d'.file? q = d.file? p ∧ (p ≠ q → d'.file? p = none) := by
  rw [rename] at h
  cases hsource : d.resolve source with
  | error e =>
      rw [hsource] at h
      cases h
  | ok p =>
      cases htarget : d.resolve target with
      | error e =>
          rw [hsource, htarget] at h
          cases h
      | ok q =>
          rw [hsource, htarget] at h
          simp only [bind, Except.bind] at h
          refine ⟨p, q, rfl, rfl, ?_⟩
          split at h
          · cases h
          · cases h
          · cases h
          · rename_i n hfile hnode hfolder
            obtain rfl := Except.ok.inj h
            obtain ⟨x, rfl⟩ : ∃ x, n = .file x := by
              cases n with
              | folder => exact absurd rfl hfile
              | file x => exact ⟨x, rfl⟩
            have herased : DiffersAt [p] d (d.erase p) := differsAt_erase (by simp [hnode])
            have htaken : (d.erase p).find? q ≠ some .folder :=
              fun h => hfolder (herased.symm.keepsFolders q h)
            obtain ⟨hset, hmoved⟩ := differsAt_set htaken x
            refine ⟨herased.trans hset, hmoved.trans (file?_eq_some.2 hnode).symm, fun hne => ?_⟩
            rw [hset.file?_eq (mt List.mem_singleton.1 hne)]
            exact file?_erase (by simp [hnode])

end Disk

end StatAlmanac
