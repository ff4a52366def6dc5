import StatAlmanac.Proofs.Cache.Sweeping

/-!
What a sweep leaves in the folder of the cache. Keys of an index that `put` takes
have their documents in the folder, each in a file of its own and none in that of
the index. So no document can stand in the way of another one, and what becomes
of it in a sweep can be told beforehand: it goes if it is stale and nothing but a
file stands in its place.
-/

namespace StatAlmanac

open Disk (IsPlain)

def Disk.refusesRemoval (d : Disk) (path : String) : Bool :=
  match d.remove path with
  | .error .refused => true
  | _ => false

namespace Cache

variable {c : Cache} {d d₁ d' : Disk} {p : Place} {now : Stamp} {key other : String}
  {keys gone : List String} {i : Index} {n : Nat} {others : World.Others} {w : World}

/-! ### Documents that cannot be removed -/

/-- The document cannot be removed. One that is missing is as good as removed. -/
def isStuck (c : Cache) (d : Disk) (key : String) : Bool := d.refusesRemoval (c.documentPath key)

def documentPlace (p : Place) (key : String) : Place := (documentName key).toList :: p

theorem documentPlace_injective (h : documentPlace p key = documentPlace p other) :
    key = other := by
  by_contra hne
  exact Disk.place_ne (p := p) (fun heq => hne (documentName_injective heq)) h

theorem remove_document (hd : d.Leads c.folder p) (hkey : isKey key) :
    d.remove (c.documentPath key) =
      if Disk.fits c.folder (documentName key) then
        match d.find? (documentPlace p key) with
        | some (.file _) => .ok (d.erase (documentPlace p key))
        | some .folder => .error .refused
        | none => .error .missing
      else .error .refused := by
  have hpath : c.documentPath key = joinPath c.folder (documentName key) := rfl
  rw [Disk.remove, hpath, Disk.resolve_joinPath hd (isPlain_documentName hkey)]
  cases Disk.fits c.folder (documentName key) with
  | false => rfl
  | true => rfl

theorem isStuck_iff (hd : d.Leads c.folder p) (hkey : isKey key) :
    c.isStuck d key ↔ Disk.fits c.folder (documentName key) = false ∨
      d.find? (documentPlace p key) = some .folder := by
  rw [isStuck, Disk.refusesRemoval, remove_document hd hkey]
  cases Disk.fits c.folder (documentName key) with
  | false => simp
  | true =>
      cases d.find? (documentPlace p key) with
      | none => simp
      | some n => cases n <;> simp

theorem isStuck_of_differsAt {ps : List Place} (hd : d.Leads c.folder p) (hkey : isKey key)
    (h : Disk.DiffersAt ps d d') : c.isStuck d' key = c.isStuck d key := by
  rw [Bool.eq_iff_iff, isStuck_iff hd hkey, isStuck_iff (hd.of_keeps h.keepsFolders) hkey]
  exact or_congr_right ⟨h.symm.keepsFolders _, h.keepsFolders _⟩

namespace Removes

/-- What is stuck when its turn comes was so from the beginning. -/
theorem eq_filter (h : Removes c d keys gone d') (hd : d.Leads c.folder p)
    (hkeys : ∀ key ∈ keys, isKey key) : gone = keys.filter fun key => !c.isStuck d key := by
  induction h with
  | done => rfl
  | @removed d d₁ d' key keys gone hremove rest ih =>
      obtain ⟨hkey, hmore⟩ := List.forall_mem_cons.1 hkeys
      obtain ⟨q, hq, hdiffers⟩ := Disk.differsAt_remove hremove
      have hfree : c.isStuck d key = false := by rw [isStuck, Disk.refusesRemoval, hremove]
      rw [List.filter_cons_of_pos (by simp [hfree]), ih (hd.of_keeps hdiffers.keepsFolders) hmore]
      refine congrArg _ (List.filter_congr fun other hother => ?_)
      rw [isStuck_of_differsAt hd (hmore other hother) hdiffers]
  | @missing d d' key keys gone hmissing rest ih =>
      obtain ⟨hkey, hmore⟩ := List.forall_mem_cons.1 hkeys
      have hfree : c.isStuck d key = false := by rw [isStuck, Disk.refusesRemoval, hmissing]
      rw [List.filter_cons_of_pos (by simp [hfree]), ih hd hmore]
  | @stuck d d' key keys gone hstuck rest ih =>
      obtain ⟨hkey, hmore⟩ := List.forall_mem_cons.1 hkeys
      have hstays : c.isStuck d key := by rw [isStuck, Disk.refusesRemoval, hstuck]
      rw [List.filter_cons_of_neg (by simp [hstays]), ih hd hmore]

theorem find?_eq (h : Removes c d keys gone d') (hd : d.Leads c.folder p)
    (hkeys : ∀ key ∈ keys, isKey key) (q : Place) :
    d'.find? q = if q ∈ gone.map (documentPlace p) then none else d.find? q := by
  induction h with
  | done => simp
  | @removed d d₁ d' key keys gone hremove rest ih =>
      obtain ⟨hkey, hmore⟩ := List.forall_mem_cons.1 hkeys
      obtain ⟨hfolder, rfl⟩ := Disk.remove_joinPath hd (isPlain_documentName hkey) hremove
      rw [ih (hd.of_keeps (Disk.keepsFolders_erase hfolder)) hmore, Disk.find?_erase, List.map_cons]
      by_cases hq : q = documentPlace p key
      · simp [hq, documentPlace]
      · simp only [List.mem_cons, hq, false_or]
        exact if_congr Iff.rfl rfl (if_neg hq)
  | @missing d d' key keys gone hmissing rest ih =>
      obtain ⟨hkey, hmore⟩ := List.forall_mem_cons.1 hkeys
      rw [ih hd hmore, List.map_cons]
      by_cases hq : q = documentPlace p key
      · have hnone : d.find? q = none := by
          rw [remove_document hd hkey] at hmissing
          split at hmissing
          · split at hmissing
            · cases hmissing
            · cases hmissing
            · rename_i hnone
              rw [hq, hnone]
          · cases hmissing
        simp [hnone]
      · simp [hq]
  | stuck _ _ ih => exact ih hd (List.forall_mem_cons.1 hkeys).2

end Removes

/-! ### What a sweep takes away -/

/-- The keys that a sweep takes away: the stale ones whose documents can be removed or are
missing. -/
def swept (c : Cache) (d : Disk) (now : Stamp) (i : Index) : List String :=
  if c.isEnabled then (c.staleKeys now i).filter fun key => !c.isStuck d key else []

theorem mem_swept : key ∈ c.swept d now i ↔
    c.isEnabled ∧ (∃ r, i.find? key = some r ∧ (c.toEntry key r).isFresh now = false) ∧
      c.isStuck d key = false := by
  rw [swept]
  cases c.isEnabled with
  | false => simp
  | true => simp [View.mem_staleKeys]

theorem mem_names {r : Record} (h : i.find? key = some r) : key ∈ i.names :=
  List.mem_map.2 ⟨(key, r), (i.mem_entries_iff key r).2 h, rfl⟩

theorem isKey_of_mem_staleKeys (hkeys : ∀ key ∈ i.names, isKey key) :
    ∀ key ∈ c.staleKeys now i, isKey key :=
  fun key hkey => hkeys key ((c.staleKeys_sublist now i).subset hkey)

theorem leads_of_load (hload : c.loadOn d = some i) (hkey : key ∈ i.names) :
    ∃ p, d.Leads c.folder p := by
  rw [loadOn] at hload
  split at hload
  · rename_i content hread
    obtain ⟨p, hp, -⟩ := Disk.leads_of_read isPlain_indexName hread
    exact ⟨p, hp⟩
  · obtain rfl := Option.some.inj hload
    cases hkey
  · cases hload

/-- What is left once all has been removed that can be, and the index has been rewritten if it had
to be. -/
inductive Clears (c : Cache) (d : Disk) (i : Index) (gone : List String) : Disk → Prop where
  | kept (hgone : gone = []) : Clears c d i gone d
  | rewritten {p : Place} {keys : List String} {d₁ d' : Disk} (hd : d.Leads c.folder p)
      (hkeys : ∀ key ∈ keys, isKey key) (hremoves : c.Removes d keys gone d₁) (hgone : gone ≠ [])
      (hsave : Replaces c.indexPath (Index.write (gone.foldl Table.erase i)) d₁ (.ok ()) d') :
      Clears c d i gone d'

theorem Sweeps.clears (h : Sweeps c now d n d') (hload : c.loadOn d = some i)
    (hkeys : ∀ key ∈ i.names, isKey key) (hsave : c.canSave d) :
    n = (c.swept d now i).length ∧ Clears c d i (c.swept d now i) d' := by
  have hstale : ∀ key ∈ c.staleKeys now i, isKey key := isKey_of_mem_staleKeys hkeys
  cases h with
  | idle hidle =>
      have hnone : c.swept d now i = [] := by
        rw [swept, if_neg]
        intro hc
        rw [hidle hc] at hload
        cases hload
      rw [hnone]
      exact ⟨rfl, .kept rfl⟩
  | @kept j _ hc hload' hremoves =>
      obtain rfl : i = j := Option.some.inj (hload.symm.trans hload')
      have hnone : c.swept d now i = [] := by
        rw [swept, if_pos hc]
        cases hkeys : c.staleKeys now i with
        | nil => rfl
        | cons key keys =>
            have hmem : key ∈ c.staleKeys now i := by simp [hkeys]
            obtain ⟨p, hp⟩ := leads_of_load hload ((c.staleKeys_sublist now i).subset hmem)
            rw [← hkeys]
            exact (hremoves.eq_filter hp hstale).symm
      rw [hnone, hremoves.eq_of_nil]
      exact ⟨rfl, .kept rfl⟩
  | @cleared j gone d₁ _ r hc hload' hremoves hgone hreplaces hr =>
      obtain rfl : i = j := Option.some.inj (hload.symm.trans hload')
      obtain ⟨key, hkey⟩ := List.exists_mem_of_ne_nil gone hgone
      have hnames := hremoves.sublist.trans (c.staleKeys_sublist now i)
      obtain ⟨p, hp⟩ := leads_of_load hload (hnames.subset hkey)
      obtain ⟨ps, hdiffers, -⟩ := hremoves.differsAt
      rw [canSave_of_differsAt hdiffers, hsave] at hr
      have hswept : c.swept d now i = gone := by
        rw [swept, if_pos hc, hremoves.eq_filter hp hstale]
      rw [hswept]
      cases r with
      | ok u => exact ⟨rfl, .rewritten hp hstale hremoves hgone hreplaces⟩
      | error e => cases hr

namespace Clears

/-- Nothing is touched but the documents that go, the index and the file beside it. -/
theorem find?_eq (h : Clears c d i gone d') {q : Place} (hq : d'.find? q ≠ d.find? q) :
    (∃ key ∈ gone, d.resolve (c.documentPath key) = .ok q) ∨ d.resolve c.indexPath = .ok q ∨
      d.resolve (temporaryPath c.indexPath) = .ok q := by
  cases h with
  | kept => exact absurd rfl hq
  | rewritten _ _ hremoves _ hsave =>
      obtain ⟨ps, hdocuments, hplaces⟩ := hremoves.differsAt
      obtain ⟨qs, hindex, hbeside⟩ := hsave.differsAt
      have hmem : q ∈ ps ++ qs :=
        Decidable.by_contra fun hnot => hq ((hdocuments.trans hindex).same q hnot)
      rcases List.mem_append.1 hmem with hq | hq
      · exact .inl (hplaces q hq)
      · rcases hbeside q hq with htemporary | ⟨-, hplace⟩
        · exact .inr (.inr (hdocuments.resolve_iff.1 htemporary))
        · exact .inr (.inl (hdocuments.resolve_iff.1 hplace))

theorem load (h : Clears c d i gone d') (hload : c.loadOn d = some i) :
    c.loadOn d' = some (gone.foldl Table.erase i) := by
  cases h with
  | kept hgone => rw [hgone, hload, List.foldl_nil]
  | rewritten _ _ _ _ hsave => exact loadOn_of_saved hload hsave

theorem find?_documentPlace (h : Clears c d i gone d') (hd : d.Leads c.folder p) (key : String) :
    d'.find? (documentPlace p key) =
      if key ∈ gone then none else d.find? (documentPlace p key) := by
  cases h with
  | kept hgone => simp [hgone]
  | @rewritten p' keys d₁ _ hd' hkeys hremoves _ hsave =>
      obtain rfl : p = p' := Except.ok.inj (hd.symm.trans hd')
      have hmem : documentPlace p key ∈ gone.map (documentPlace p) ↔ key ∈ gone :=
        List.mem_map_of_injective fun _ _ => documentPlace_injective
      obtain ⟨qs, hindex, hbeside⟩ := hsave.differsAt
      rw [hindex.same, hremoves.find?_eq hd hkeys, if_congr hmem rfl rfl]
      intro hq
      -- a document has another last letter than the index and the file beside it
      have hletter : lastLetter? (documentPlace p key) = some 'l' := getLast?_documentName key
      rcases hbeside _ hq with htemporary | ⟨-, hplace⟩
      · rw [lastLetter?_temporary htemporary] at hletter
        exact absurd hletter (by decide)
      · rw [lastLetter?_index hplace] at hletter
        exact absurd hletter (by decide)

theorem eq_of_nil (h : Clears c d i [] d') : d' = d := by
  cases h with
  | kept => rfl
  | rewritten _ _ _ hgone => exact absurd rfl hgone

end Clears

variable {r : Record}

/-! ### What is found afterwards -/

theorem read_document_of_clears (h : Clears c d i gone d') (hdiffers : ∃ ps, Disk.DiffersAt ps d d')
    (hload : c.loadOn d = some i) (hkeys : ∀ key ∈ i.names, isKey key) (hr : i.find? key = some r)
    (hkey : key ∉ gone) : d'.read (c.documentPath key) = d.read (c.documentPath key) := by
  obtain ⟨ps, hdiffers⟩ := hdiffers
  obtain ⟨p, hd⟩ := leads_of_load hload (mem_names hr)
  have hplace := h.find?_documentPlace hd key
  rw [if_neg hkey] at hplace
  exact Disk.read_joinPath_congr hd (hd.of_keeps hdiffers.keepsFolders)
    (isPlain_documentName (hkeys key (mem_names hr))) hplace

theorem read_document_of_swept (h : Clears c d i (c.swept d now i) d')
    (hdiffers : ∃ ps, Disk.DiffersAt ps d d') (hload : c.loadOn d = some i)
    (hkeys : ∀ key ∈ i.names, isKey key) (hkey : key ∈ c.swept d now i) :
    d'.read (c.documentPath key) = .error .missing := by
  obtain ⟨ps, hdiffers⟩ := hdiffers
  obtain ⟨-, ⟨r, hr, -⟩, hfree⟩ := mem_swept.1 hkey
  have hisKey := hkeys key (mem_names hr)
  obtain ⟨p, hd⟩ := leads_of_load hload (mem_names hr)
  have hplace := h.find?_documentPlace hd key
  rw [if_pos hkey] at hplace
  rw [Bool.eq_false_iff, Ne, isStuck_iff hd hisKey, not_or, Bool.not_eq_false] at hfree
  have hread := Disk.read_joinPath (hd.of_keeps hdiffers.keepsFolders) (isPlain_documentName hisKey)
  rw [if_pos hfree.1, Disk.contentAt] at hread
  have hpath : c.documentPath key = joinPath c.folder (documentName key) := rfl
  rw [hpath, hread]
  rw [documentPlace] at hplace
  rw [hplace]

theorem sweep_of_swept (hload : c.loadOn w.disk = some i) (hkeys : ∀ key ∈ i.names, isKey key)
    (hsave : c.canSave w.disk) (hnone : c.swept w.disk w.now i = []) :
    c.sweep.runWith others w = (0, w) := by
  have hsweeps : c.Sweeps w.now w.disk _ _ := sweeps_sweep others c w
  obtain ⟨hcount, hclears⟩ := hsweeps.clears hload hkeys hsave
  rw [hnone] at hcount hclears
  refine Prod.ext hcount ?_
  rw [runWith_of_cacheWork c.only_sweep w, hclears.eq_of_nil]

theorem isKey_foldl_erase (hkeys : ∀ key ∈ i.names, isKey key) (gone : List String) :
    ∀ key ∈ (gone.foldl Table.erase i).names, isKey key := by
  intro key hkey
  obtain ⟨⟨k, r⟩, he, rfl⟩ := List.mem_map.1 hkey
  rw [Table.foldl_erase_entries] at he
  exact hkeys k (List.mem_map_of_mem (List.mem_of_mem_filter he))

/-- What is stale still after a sweep is stuck. -/
theorem swept_of_swept (hload : c.loadOn d = some i) (hkeys : ∀ key ∈ i.names, isKey key)
    (hdiffers : ∃ ps, Disk.DiffersAt ps d d') :
    c.swept d' now ((c.swept d now i).foldl Table.erase i) = [] := by
  obtain ⟨ps, hdiffers⟩ := hdiffers
  rw [List.eq_nil_iff_forall_not_mem]
  intro key hkey
  obtain ⟨hc, ⟨r, hr, hstale⟩, hfree⟩ := mem_swept.1 hkey
  rw [Table.find?_foldl_erase] at hr
  split at hr
  · cases hr
  · rename_i hnot
    obtain ⟨p, hd⟩ := leads_of_load hload (mem_names hr)
    rw [isStuck_of_differsAt hd (hkeys key (mem_names hr)) hdiffers] at hfree
    exact hnot (mem_swept.2 ⟨hc, ⟨r, hr, hstale⟩, hfree⟩)

theorem stale_listOn (hc : c.isEnabled) (hload : c.loadOn d = some i) (now : Stamp) :
    (Summary.ofEntries now (c.listOn d)).stale = (c.staleKeys now i).length := by
  have hindex : c.indexOn d = i := by rw [indexOn, hload, Option.getD_some]
  have hcount := i.entries.length_eq_countP_add_countP fun e => (c.toEntry e.1 e.2).isFresh now
  have hstale : (c.staleKeys now i).length =
      i.entries.countP fun e => ¬(c.toEntry e.1 e.2).isFresh now := by
    rw [staleKeys, List.length_map, List.countP_eq_length_filter]
    simp
  simp only [Summary.stale, Summary.ofEntries, listOn, hc, if_true, hindex, List.length_map,
    List.countP_map, Function.comp_def]
  rw [hstale, hcount]
  exact Nat.add_sub_cancel_left _ _

/-- If no stale document is stuck, as many entries are taken away as the summary says are stale. -/
theorem length_swept_of_free (hload : c.loadOn w.disk = some i)
    (hfree : ∀ key ∈ c.staleKeys w.now i, c.isStuck w.disk key = false) :
    (c.swept w.disk w.now i).length = (c.summary.runWith others w).1.stale := by
  have hsummary : (c.summary.runWith others w).1 = Summary.ofEntries w.now (c.listOn w.disk) := by
    rw [summary, Job.runWith_bind, runWith_entries]
    rfl
  rw [hsummary, swept]
  cases hc : c.isEnabled with
  | false => simp [listOn, hc, Summary.stale, Summary.ofEntries]
  | true =>
      rw [if_pos rfl, stale_listOn hc hload, List.filter_eq_self.2]
      intro key hkey
      rw [hfree key hkey, Bool.not_false]

/-- A key that a sweep does not take away keeps its entry and its document at all times. -/
theorem getOn_of_clears (h : Clears c d i gone d') (hdiffers : ∃ ps, Disk.DiffersAt ps d d')
    (hload : c.loadOn d = some i) (hkeys : ∀ key ∈ i.names, isKey key) (hr : i.find? key = some r)
    (hkey : key ∉ gone) :
    c.entryOn d' key = c.entryOn d key ∧ ∀ t, c.getOn d' t key = c.getOn d t key := by
  have hentry : c.entryOn d' key = c.entryOn d key := by
    rw [entryOn, entryOn, indexOn, indexOn, h.load hload, hload, Option.getD_some, Option.getD_some,
      Table.find?_foldl_erase, if_neg hkey]
  refine ⟨hentry, fun t => ?_⟩
  rw [getOn, getOn, isFreshOn, isFreshOn, hentry,
    read_document_of_clears h hdiffers hload hkeys hr hkey]

/-- The effect of a sweep, where the index lists keys that `put` takes and can be rewritten. It
takes away the stale entries whose documents can be removed or are missing, with these documents,
and counts them. What is fresh or stuck stays as it is, and nothing else is touched but the index
and the file beside it. A second sweep has nothing to do. -/
theorem sweep_effect (others : World.Others) (hload : c.loadOn w.disk = some i)
    (hkeys : ∀ key ∈ i.names, isKey key) (hsave : c.canSave w.disk) :
    let gone := c.swept w.disk w.now i
    let run := c.sweep.runWith others w
    let w' := run.2
    run.1 = gone.length ∧
    w' = { w with disk := w'.disk } ∧
    (∃ i', c.loadOn w'.disk = some i' ∧
      ∀ key, i'.find? key = if key ∈ gone then none else i.find? key) ∧
    (∀ key r, i.find? key = some r → (c.toEntry key r).isFresh w.now ∨ c.isStuck w.disk key →
      key ∉ gone ∧ w'.disk.read (c.documentPath key) = w.disk.read (c.documentPath key) ∧
      ∀ now, ((c.entry key).runWith others { w' with now }).1 =
          ((c.entry key).runWith others { w with now }).1 ∧
        ((c.get key).runWith others { w' with now }).1 =
          ((c.get key).runWith others { w with now }).1) ∧
    (∀ key ∈ gone, w'.disk.read (c.documentPath key) = .error .missing) ∧
    (∀ p, w'.disk.find? p ≠ w.disk.find? p →
      (∃ key ∈ gone, w.disk.resolve (c.documentPath key) = .ok p) ∨
        w.disk.resolve c.indexPath = .ok p ∨
        w.disk.resolve (temporaryPath c.indexPath) = .ok p) ∧
    c.sweep.runWith others w' = (0, w') ∧
    ((∀ key ∈ c.staleKeys w.now i, c.isStuck w.disk key = false) →
      run.1 = (c.summary.runWith others w).1.stale) := by
  intro gone run w'
  have hsweeps : c.Sweeps w.now w.disk run.1 w'.disk := sweeps_sweep others c w
  obtain ⟨hcount, hclears⟩ := hsweeps.clears hload hkeys hsave
  have hdiffers := hsweeps.differsAt
  have hw' : w' = { w with disk := w'.disk } := runWith_of_cacheWork c.only_sweep w
  have hload' := hclears.load hload
  have hfind (key : String) : (gone.foldl Table.erase i).find? key =
      if key ∈ gone then none else i.find? key := Table.find?_foldl_erase gone i key
  refine ⟨hcount, hw', ⟨_, hload', hfind⟩, fun key r hr hstays => ?_, fun key hkey => ?_,
    fun p hp => hclears.find?_eq hp, ?_, fun hfree => ?_⟩
  · have hkey : key ∉ gone := by
      intro hmem
      obtain ⟨-, ⟨r', hr', hstale⟩, hfree⟩ := mem_swept.1 hmem
      obtain rfl : r = r' := Option.some.inj (hr.symm.trans hr')
      simp [hstale, hfree] at hstays
    obtain ⟨hentry, hget⟩ := getOn_of_clears hclears hdiffers hload hkeys hr hkey
    refine ⟨hkey, read_document_of_clears hclears hdiffers hload hkeys hr hkey, fun now => ?_⟩
    simp only [runWith_entry, runWith_get]
    exact ⟨hentry, hget now⟩
  · exact read_document_of_swept hclears hdiffers hload hkeys hkey
  · have hnow : w'.now = w.now := by rw [hw']
    refine sweep_of_swept hload' (isKey_foldl_erase hkeys gone) (by rw [hsweeps.canSave, hsave]) ?_
    rw [hnow]
    exact swept_of_swept hload hkeys hdiffers
  · rw [hcount]
    exact length_swept_of_free hload hfree

def secondDay : Stamp := ⟨2, 7200, 5, by decide, by decide, by decide, by decide, by decide⟩

/-- One entry that is fresh and three that are stale. -/
def mixedIndex : Index :=
  (((Table.empty.insert "fresh" ⟨"Fresh", secondDay, 1⟩).insert "lost" ⟨"Lost", default, 1⟩).insert
    "stuck" ⟨"Stuck", default, 1⟩).insert "worn" ⟨"Worn", default, 1⟩

/-- A folder of a cache with an index, where a document is missing and a folder is in the place of
another one. -/
def mixedWorld : World where
  disk := ⟨[(["cache".toList], .folder),
    ([indexName.toList, "cache".toList], .file mixedIndex.write),
    (["fresh.html".toList, "cache".toList], .file [60]),
    (["stuck.html".toList, "cache".toList], .folder),
    (["worn.html".toList, "cache".toList], .file [62])]⟩
  now := secondDay
  remote := scripted [] (.error .timeout)
  reading _ := .zero

theorem sweep_effect_mixed :
    let c : Cache := { folder := "cache" }
    let run := c.sweep.runWith World.nobody mixedWorld
    (c.loadOn mixedWorld.disk = some mixedIndex ∧ (∀ key ∈ mixedIndex.names, isKey key) ∧
      c.canSave mixedWorld.disk) ∧
    run.1 = 2 ∧ c.sweep.runWith World.nobody run.2 = (0, run.2) ∧
      (∀ key ∈ ["fresh", "stuck"],
        run.2.disk.read (c.documentPath key) = mixedWorld.disk.read (c.documentPath key)) ∧
      ∀ key ∈ ["lost", "worn"], run.2.disk.read (c.documentPath key) = .error .missing := by
  intro c run
  have hload : c.loadOn mixedWorld.disk = some mixedIndex := by
    have hresolve : (mixedWorld.disk.resolve c.indexPath).toOption =
        some [indexName.toList, "cache".toList] := by decide
    have hread : mixedWorld.disk.read c.indexPath = .ok mixedIndex.write :=
      Disk.toOption_eq_some.1 <| (Disk.read_of_resolve (Disk.toOption_eq_some.1 hresolve)).trans <|
        Disk.file?_eq_some.2 rfl
    rw [loadOn, hread]
    exact Index.read?_write (by decide)
  have hkeys : ∀ key ∈ mixedIndex.names, isKey key := by decide
  have hsave : c.canSave mixedWorld.disk := by decide
  have hgone : c.swept mixedWorld.disk mixedWorld.now mixedIndex = ["lost", "worn"] := by decide
  have hfresh : (c.toEntry "fresh" ⟨"Fresh", secondDay, 1⟩).isFresh mixedWorld.now := by decide
  have hstuck : c.isStuck mixedWorld.disk "stuck" := by decide
  obtain ⟨hcount, -, -, hstays, hswept, -, hagain, -⟩ :=
    sweep_effect World.nobody hload hkeys hsave
  rw [hgone] at hcount hstays hswept
  subst run
  refine ⟨⟨hload, hkeys, hsave⟩, hcount, hagain, ?_, hswept⟩
  intro key hkey
  simp only [List.mem_cons, List.not_mem_nil, or_false] at hkey
  rcases hkey with rfl | rfl
  · exact (hstays "fresh" ⟨"Fresh", secondDay, 1⟩ (by decide) (.inl hfresh)).2.1
  · exact (hstays "stuck" ⟨"Stuck", default, 1⟩ (by decide) (.inr hstuck)).2.1

end Cache

end StatAlmanac
