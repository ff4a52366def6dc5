import StatAlmanac.Proofs.Cache.Lookups
import StatAlmanac.Proofs.Cache.Refinement
import StatAlmanac.Proofs.Disk.Child
import StatAlmanac.Proofs.Job.Play

/-!
Where a cache acts on the disk. A `put` checks its key, so it stays in the
folder of the cache. A `get` and a `sweep` take keys from the index unchecked:
they stay in the folder as long as the documents of these keys are in it, and
leave it for the first one that is not.
-/

namespace StatAlmanac

/-- The effect is on something directly in the folder `dir`, or makes the folder. -/
def Effect.staysIn (dir : String) : Effect → Bool
  | .read path | .write path _ | .remove path => Disk.isChild dir path
  | .rename source target => Disk.isChild dir source && Disk.isChild dir target
  | .makeFolders path => path == dir
  | _ => true

namespace Job

variable {α β : Type} {others : World.Others} {w : World} {dir : String}

def Stays (dir : String) (others : World.Others) (w : World) (t : Job α) : Prop :=
  ∀ e ∈ t.effects others w, e.staysIn dir

theorem stays_of_only {t : Job α} (h : t.Only fun e => e.staysIn dir) : t.Stays dir others w :=
  forall_effects_of_only h

theorem stays_pure (a : α) : (pure a : Job α).Stays dir others w := List.forall_mem_nil _

theorem stays_bind {t : Job α} {f : α → Job β} :
    (t >>= f).Stays dir others w ↔
      t.Stays dir others w ∧
        (f (t.runWith others w).1).Stays dir others (t.runWith others w).2 := by
  simp only [Stays, effects_bind, List.forall_mem_append]

theorem stays_map {t : Job α} {f : α → β} :
    (f <$> t).Stays dir others w ↔ t.Stays dir others w := by
  rw [map_eq_pure_bind, stays_bind]
  exact ⟨And.left, fun h => ⟨h, stays_pure _⟩⟩

theorem stays_inside {gate : Gate} {t : Job α} :
    (Job.inside gate t).Stays dir others w ↔ t.Stays dir others w := by
  have henter : (Job.enter gate).Stays dir others w := stays_of_only (only_act rfl)
  have hleave (a : α) : (do Job.leave gate; return a).Stays dir others (t.runWith others w).2 :=
    stays_of_only (only_bind (only_act rfl) fun _ => only_pure a)
  rw [Job.inside, stays_bind, stays_bind]
  exact ⟨fun h => h.2.1, fun h => ⟨henter, h, hleave _⟩⟩

end Job

namespace Cache

variable {c : Cache} {key name : String} {others : World.Others} {w : World}

/-- The job stays in the folder of the cache, whatever the disk answers. -/
abbrev Confined {α : Type} (c : Cache) (t : Job α) : Prop := t.Only fun e => e.staysIn c.folder

theorem isChild_indexPath (c : Cache) : Disk.isChild c.folder c.indexPath :=
  Disk.isChild_joinPath c.folder isPlain_indexName

theorem isChild_documentPath (c : Cache) (h : '/' ∉ key.toList) :
    Disk.isChild c.folder (c.documentPath key) :=
  Disk.isChild_joinPath c.folder (isPlain_withEnding h (by decide) (by decide))

theorem confined_writeFile (hname : Disk.IsPlain name) (content : Bytes) :
    c.Confined (writeFile (joinPath c.folder name) content) := by
  have hbeside : Disk.isChild c.folder (temporaryPath (joinPath c.folder name)) := by
    rw [temporaryPath_joinPath c.folder hname]
    exact Disk.isChild_joinPath c.folder (isPlain_temporaryPath hname)
  have hplace := Disk.isChild_joinPath c.folder hname
  refine Job.only_bind (Job.only_act hbeside) fun r => ?_
  split
  · trivial
  · refine Job.only_bind (Job.only_act ?_) fun r => ?_
    · exact Bool.and_eq_true_iff.2 ⟨hbeside, hplace⟩
    · split
      · trivial
      · trivial

theorem confined_load (c : Cache) : c.Confined c.load := by
  refine Job.only_bind (Job.only_act c.isChild_indexPath) fun r => ?_
  split
  · trivial
  · trivial
  · trivial

theorem confined_index (c : Cache) : c.Confined c.index :=
  Job.only_bind c.confined_load fun _ => trivial

theorem confined_save (c : Cache) (i : Index) : c.Confined (c.save i) :=
  confined_writeFile isPlain_indexName i.write

theorem confined_entry (c : Cache) (key : String) : c.Confined (c.entry key) := by
  rw [entry]
  split
  · trivial
  · exact Job.only_bind c.confined_index fun _ => trivial

theorem confined_entries (c : Cache) : c.Confined c.entries := by
  rw [entries]
  split
  · trivial
  · exact Job.only_bind c.confined_index fun _ => trivial

theorem confined_size (c : Cache) : c.Confined c.size :=
  Job.only_bind c.confined_entries fun _ => trivial

theorem confined_summary (c : Cache) : c.Confined c.summary :=
  Job.only_bind c.confined_entries fun _ => Job.only_bind (Job.only_act rfl) fun _ => trivial

theorem confined_isFresh (c : Cache) (key : String) : c.Confined (c.isFresh key) := by
  refine Job.only_bind (c.confined_entry key) fun r => ?_
  split
  · trivial
  · exact Job.only_bind (Job.only_act rfl) fun _ => trivial

theorem confined_put (c : Cache) (key name : String) (document : Bytes) :
    c.Confined (c.put key name document) := by
  refine Job.only_bind (Job.only_act rfl) fun now => ?_
  split
  · trivial
  · split
    · trivial
    · rename_i hkey
      have hname : Disk.IsPlain (documentName key) := isPlain_documentName (by simpa using hkey)
      have hfolder : (Effect.makeFolders c.folder).staysIn c.folder := beq_self_eq_true c.folder
      refine Job.only_inside rfl rfl (Job.only_bind (Job.only_act hfolder) fun r => ?_)
      split
      · trivial
      · refine Job.only_bind (confined_writeFile hname document) fun r => ?_
        split
        · trivial
        · exact Job.only_bind c.confined_index fun i => c.confined_save _

/-! ### Keys of the index -/

/-- A `get` leaves the folder only for a fresh document that is not in it. -/
theorem stays_get_iff : (c.get key).Stays c.folder others w ↔
    (c.isFreshOn w.disk w.now key → Disk.isChild c.folder (c.documentPath key)) := by
  have hentry : (c.entry key).Stays c.folder others w := Job.stays_of_only (c.confined_entry key)
  rw [get, Job.stays_bind, runWith_entry, isFreshOn]
  cases c.entryOn w.disk key with
  | none => exact ⟨fun _ h => absurd h Bool.false_ne_true, fun _ => ⟨hentry, Job.stays_pure none⟩⟩
  | some e =>
      have hnow : Job.now.Stays c.folder others w := Job.stays_of_only (Job.only_act rfl)
      rw [Option.any_some, Job.stays_bind, Job.runWith_now]
      by_cases hfresh : e.isFresh w.now
      · rw [if_pos hfresh]
        have hread :
            (do return (← Job.read (c.documentPath key)).toOption).Stays c.folder others w ↔
            Disk.isChild c.folder (c.documentPath key) := List.forall_mem_singleton
        rw [hread]
        exact ⟨fun h _ => h.2.2, fun h => ⟨hentry, hnow, h hfresh⟩⟩
      · rw [if_neg hfresh]
        exact ⟨fun _ h => absurd h hfresh, fun _ => ⟨hentry, hnow, Job.stays_pure none⟩⟩

theorem effects_removeAll (c : Cache) (keys : List String) (i : Index) (n : Nat) (w : World) :
    (c.removeAll keys i n).effects others w =
      keys.map fun key => .remove (c.documentPath key) := by
  induction keys generalizing i n w with
  | nil => rfl
  | cons key keys ih =>
      rw [removeAll, Job.effects_bind, List.map_cons]
      -- whatever becomes of one document, the others are next
      refine congrArg (_ :: ·) ?_
      split
      · exact ih _ _ _
      · exact ih _ _ _
      · exact ih _ _ _

theorem stays_removeAll (keys : List String) (i : Index) (n : Nat) :
    (c.removeAll keys i n).Stays c.folder others w ↔
      ∀ key ∈ keys, Disk.isChild c.folder (c.documentPath key) := by
  rw [Job.Stays, effects_removeAll, List.forall_mem_map]
  rfl

theorem stays_sweep_iff : c.sweep.Stays c.folder others w ↔
    (c.isEnabled → ∀ i, c.loadOn w.disk = some i → ∀ key ∈ c.staleKeys w.now i,
      Disk.isChild c.folder (c.documentPath key)) := by
  rw [sweep]
  cases c.isEnabled with
  | false => exact ⟨fun _ h => absurd h Bool.false_ne_true, fun _ => Job.stays_pure _⟩
  | true =>
      have hload : c.load.Stays c.folder others w := Job.stays_of_only c.confined_load
      have hnow : Job.now.Stays c.folder others w := Job.stays_of_only (Job.only_act rfl)
      simp only [Bool.not_true, Bool.false_eq_true, if_false, Job.stays_inside, Job.stays_bind,
        runWith_load, hload, true_and, forall_const]
      cases c.loadOn w.disk with
      | none =>
          exact ⟨fun _ i hi => absurd hi (Option.some_ne_none i).symm, fun _ => Job.stays_pure _⟩
      | some i =>
          simp only [Job.stays_bind, Job.runWith_now, stays_removeAll, hnow, true_and]
          have hrest (swept : Index) (removed : Nat) : c.Confined (do
              if 0 < removed then let _ ← c.save swept
              return removed) := by
            split
            · exact Job.only_bind (c.confined_save swept) fun _ => trivial
            · trivial
          refine ⟨fun h j hj => ?_, fun h => ⟨h i rfl, Job.stays_of_only (hrest _ _)⟩⟩
          obtain rfl := Option.some.inj hj
          exact h.1

/-! ### Whole runs -/

def serveEffects (others : World.Others) (c : Cache) :
    World → List (Stamp × CacheCall) → List Effect
  | _, [] => []
  | w, (now, call) :: rest =>
      (c.job call).effects others { w with now } ++
        serveEffects others c ((c.job call).runWith others { w with now }).2 rest

/-- The documents are in the folder whose keys the call takes from the index. -/
def FindsInside (c : Cache) (w : World) : CacheCall → Prop
  | .get key => c.isFreshOn w.disk w.now key → Disk.isChild c.folder (c.documentPath key)
  | .sweep => c.isEnabled → ∀ i, c.loadOn w.disk = some i → ∀ key ∈ c.staleKeys w.now i,
      Disk.isChild c.folder (c.documentPath key)
  | _ => True

theorem stays_of_confined {α : Type} {t : Job α} (answer : α → CacheAnswer) (ht : c.Confined t) :
    (answer <$> t).Stays c.folder others w ↔ True :=
  iff_true_intro (Job.stays_map.2 (Job.stays_of_only ht))

theorem stays_job_iff (call : CacheCall) :
    (c.job call).Stays c.folder others w ↔ c.FindsInside w call := by
  cases call with
  | get key => exact Job.stays_map.trans stays_get_iff
  | sweep => exact Job.stays_map.trans stays_sweep_iff
  | put key name document => exact stays_of_confined .put (c.confined_put key name document)
  | isFresh key => exact stays_of_confined .isFresh (c.confined_isFresh key)
  | entry key => exact stays_of_confined .entry (c.confined_entry key)
  | entries => exact stays_of_confined .entries c.confined_entries
  | size => exact stays_of_confined .size c.confined_size
  | summary => exact stays_of_confined .summary c.confined_summary

theorem stays_serve_iff {calls : List (Stamp × CacheCall)} :
    (∀ e ∈ c.serveEffects others w calls, e.staysIn c.folder) ↔
      ∀ earlier now call later, calls = earlier ++ (now, call) :: later →
        c.FindsInside { (c.serve others w earlier).2 with now } call := by
  induction calls generalizing w with
  | nil => exact ⟨fun _ earlier now call later h => by simp at h, fun _ => nofun⟩
  | cons first rest ih =>
      obtain ⟨now, call⟩ := first
      have hfirst : (c.job call).Stays c.folder others { w with now } ↔
          c.FindsInside { w with now } call := stays_job_iff call
      rw [serveEffects, List.forall_mem_append, ih]
      constructor
      · rintro ⟨hcall, hrest⟩ earlier now' call' later hcalls
        cases earlier with
        | nil =>
            obtain ⟨⟨⟩, rfl⟩ := List.cons.inj hcalls
            exact hfirst.1 hcall
        | cons first earlier =>
            obtain ⟨rfl, htail⟩ := List.cons.inj hcalls
            exact hrest earlier now' call' later htail
      · intro h
        refine ⟨hfirst.2 (h [] now call rest rfl), fun earlier now' call' later hcalls => ?_⟩
        exact h ((now, call) :: earlier) now' call' later (congrArg _ hcalls)

/-! ### Files elsewhere -/

/-- Folders stay, and the files stay as they are but for those directly in the folder `dir`. -/
structure SameElsewhere (dir : String) (d d' : Disk) : Prop where
  keeps : d.KeepsFolders d'
  inside : ∀ q, d'.file? q ≠ d.file? q → ∃ p name, d'.Leads dir p ∧ q = name :: p

namespace SameElsewhere

variable {dir : String} {d d' d'' : Disk} {ps : List Place}

theorem refl (dir : String) (d : Disk) : SameElsewhere dir d d :=
  ⟨fun _ h => h, fun _ h => absurd rfl h⟩

theorem trans (h : SameElsewhere dir d d') (h' : SameElsewhere dir d' d'') :
    SameElsewhere dir d d'' := by
  refine ⟨h.keeps.trans h'.keeps, fun q hq => ?_⟩
  by_cases hlater : d''.file? q = d'.file? q
  · obtain ⟨p, name, hp, hplace⟩ := h.inside q fun heq => hq (hlater.trans heq)
    exact ⟨p, name, hp.of_keeps h'.keeps, hplace⟩
  · exact h'.inside q hlater

theorem of_differsAt (h : Disk.DiffersAt ps d d')
    (hps : ∀ q ∈ ps, ∃ path, Disk.isChild dir path ∧ d.resolve path = .ok q) :
    SameElsewhere dir d d' := by
  refine ⟨h.keepsFolders, fun q hq => ?_⟩
  have hmem : q ∈ ps := Decidable.by_contra fun hnot => hq (h.file?_eq hnot)
  obtain ⟨path, hchild, hresolve⟩ := hps q hmem
  obtain ⟨p, name, hp, hplace⟩ := Disk.resolve_of_isChild hchild hresolve
  exact ⟨p, name, hp.of_keeps h.keepsFolders, hplace⟩

theorem of_addsFolders (h : d.AddsFolders d') : SameElsewhere dir d d' :=
  ⟨h.keepsFolders, fun q hq => absurd (h.file?_eq q) hq⟩

end SameElsewhere

theorem disk_pass (w : World) (nanos : Nat) : (w.pass World.nobody nanos).disk = w.disk := rfl

theorem sameElsewhere_perform {dir : String} {e : Effect} (he : e.staysIn dir) (w : World) :
    SameElsewhere dir w.disk (w.perform World.nobody e).2.disk := by
  cases e with
  | write path content =>
      simp only [World.perform]
      cases hwrite : w.disk.write path content with
      | error e => exact .refl dir w.disk
      | ok d =>
          obtain ⟨p, hp, hdiffers, -⟩ := Disk.differsAt_write hwrite
          refine .of_differsAt hdiffers fun q hq => ⟨path, he, ?_⟩
          rw [List.mem_singleton.1 hq, hp]
  | remove path =>
      simp only [World.perform]
      cases hremove : w.disk.remove path with
      | error e => exact .refl dir w.disk
      | ok d =>
          obtain ⟨p, hp, hdiffers⟩ := Disk.differsAt_remove hremove
          refine .of_differsAt hdiffers fun q hq => ⟨path, he, ?_⟩
          rw [List.mem_singleton.1 hq, hp]
  | rename source target =>
      obtain ⟨hsource, htarget⟩ := Bool.and_eq_true_iff.1 he
      simp only [World.perform]
      cases hrename : w.disk.rename source target with
      | error e => exact .refl dir w.disk
      | ok d =>
          obtain ⟨p, r, hp, hr, hdiffers, -⟩ := Disk.differsAt_rename hrename
          refine .of_differsAt hdiffers fun q hq => ?_
          have hq : q = p ∨ q = r := by simpa using hq
          rcases hq with rfl | rfl
          · exact ⟨source, hsource, hp⟩
          · exact ⟨target, htarget, hr⟩
  | makeFolders path => exact .of_addsFolders (Disk.addsFolders_makeFolders w.disk path)
  | pause length =>
      have hdisk : (w.perform World.nobody (.pause length)).2.disk = w.disk := disk_pass w _
      rw [hdisk]
      exact .refl dir w.disk
  | read | enter | leave | now | ticks | giveWay | lastSend | markSend | send | disconnect | count
  | metrics => exact .refl dir w.disk

theorem sameElsewhere_of_stays {α : Type} {dir : String} {t : Job α} {w : World}
    (h : t.Stays dir World.nobody w) :
    SameElsewhere dir w.disk (t.runWith World.nobody w).2.disk := by
  induction t generalizing w with
  | done a => exact .refl dir w.disk
  | step e next ih =>
      have he : e.staysIn dir := h e List.mem_cons_self
      exact (sameElsewhere_perform he w).trans (ih _ fun d hd => h d (List.mem_cons_of_mem _ hd))

theorem sameElsewhere_serve {calls : List (Stamp × CacheCall)} {w : World}
    (h : ∀ e ∈ c.serveEffects World.nobody w calls, e.staysIn c.folder) :
    SameElsewhere c.folder w.disk (c.serve World.nobody w calls).2.disk := by
  induction calls generalizing w with
  | nil => exact .refl c.folder w.disk
  | cons first rest ih =>
      obtain ⟨now, call⟩ := first
      obtain ⟨hcall, hrest⟩ := List.forall_mem_append.1 h
      have hfirst : (c.job call).Stays c.folder World.nobody { w with now } := hcall
      exact (sameElsewhere_of_stays hfirst).trans (ih hrest)

theorem file_of_getOn {d : Disk} {now : Stamp} {document : Bytes}
    (hchild : c.isFreshOn d now key → Disk.isChild c.folder (c.documentPath key))
    (h : c.getOn d now key = some document) :
    ∃ p name, d.Leads c.folder p ∧ d.file? (name :: p) = some document := by
  rw [getOn] at h
  split at h
  · rename_i hfresh
    rw [Disk.toOption_read] at h
    obtain ⟨q, hq, hfile⟩ := Option.bind_eq_some_iff.1 h
    obtain ⟨p, name, hp, rfl⟩ :=
      Disk.resolve_of_isChild (hchild hfresh) (Disk.toOption_eq_some.1 hq)
    exact ⟨p, name, hp, hfile⟩
  · cases h

/-! ### Where a run stays -/

/-- All effects of answering calls stay in the folder if and only if no key leads out of it that a
`get` finds fresh or a `sweep` finds stale. Where they do, and nobody else is there, files elsewhere
stay as they are, and what a `get` returns is a file in the folder. -/
theorem serve_stays_iff (others : World.Others) (c : Cache) (w : World)
    (calls : List (Stamp × CacheCall)) :
    ((∀ e ∈ c.serveEffects others w calls, e.staysIn c.folder) ↔
      ∀ earlier now call later, calls = earlier ++ (now, call) :: later →
        c.FindsInside { (c.serve others w earlier).2 with now } call) ∧
    ((∀ e ∈ c.serveEffects World.nobody w calls, e.staysIn c.folder) →
      SameElsewhere c.folder w.disk (c.serve World.nobody w calls).2.disk ∧
      ∀ earlier now key later document, calls = earlier ++ (now, .get key) :: later →
        let here := { (c.serve World.nobody w earlier).2 with now }
        ((c.get key).runWith World.nobody here).1 = some document →
          ∃ p name, here.disk.Leads c.folder p ∧ here.disk.file? (name :: p) = some document) := by
  refine ⟨stays_serve_iff, fun hstays => ⟨sameElsewhere_serve hstays, ?_⟩⟩
  intro earlier now key later document hcalls here hget
  rw [runWith_get] at hget
  exact file_of_getOn (stays_serve_iff.1 hstays earlier now (.get key) later hcalls) hget

/-- The folder of a cache whose index lists a document outside of it, and this document. -/
def outsideWorld : World :=
  let i : Index := Table.empty.insert "../rune" ⟨"Rune", default, 1⟩
  { disk := ⟨[(["rune.html".toList], .file [60]), (["cache".toList], .folder),
      ([indexName.toList, "cache".toList], .file i.write)]⟩
    now := default, remote := scripted [] (.error .timeout), reading := fun _ => .zero }

/-- A `get` returns a document outside the folder, and a `sweep` deletes it a day later. -/
theorem get_outside :
    let c : Cache := { folder := "cache" }
    let tomorrow : Stamp := ⟨1, 0, 0, by decide, by decide, by decide, by decide, by decide⟩
    let swept := (c.sweep.runWith World.nobody { outsideWorld with now := tomorrow }).2
    Disk.isChild c.folder (c.documentPath "../rune") = false ∧
      ((c.get "../rune").runWith World.nobody outsideWorld).1 = some [60] ∧
      (outsideWorld.disk.read "rune.html").toOption = some [60] ∧
      (swept.disk.read "rune.html").toOption = none := by
  decide +kernel

end Cache

end StatAlmanac
