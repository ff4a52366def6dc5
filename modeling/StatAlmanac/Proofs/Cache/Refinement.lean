import StatAlmanac.Proofs.Cache.Files

/-!
A cache on disk is as good as a shelf: whatever is asked of it, it answers as the
shelf does, and its disk goes on holding what is on the shelf. A cache that
starts without an index is an empty shelf.
-/

namespace StatAlmanac

namespace Cache

variable {c : Cache} {key name : String} {d d' : Disk} {m : Shelf} {p : Place}
  {document : Bytes} {others : World.Others} {w : World}

/-! ### Storing -/

theorem ensures_put (hc : c.isEnabled) (h : c.Holds w.disk m) (hsize : document.length < bound64) :
    (c.put key name document).Ensures others w fun r w' =>
      .put r = (m.answer c.lifetime w.now (.put key name document)).1 ∧
        c.Holds w'.disk (m.answer c.lifetime w.now (.put key name document)).2 := by
  rw [put, Shelf.answer]
  refine .now ?_
  rw [hc]
  by_cases hkey : isKey key
  · rw [if_pos hkey, hkey]
    refine .inside (.makeFolders fun hmake => ?_)
    obtain ⟨hindex, hdocuments⟩ := h.makeFolders hmake
    refine (ensures_writeDocument (s := ⟨name, w.now, document⟩) hkey hdocuments).bind ?_
    rintro r w₁ ⟨rfl, -, hread, hdocuments⟩
    -- the index is read behind the write of the document, which left it alone
    refine (ensures_index (hasIndex_of_read hindex hread) h.size_index).bind ?_
    rintro i w₂ ⟨rfl, rfl⟩
    refine (ensures_save hdocuments).mono ?_
    rintro r w₃ ⟨rfl, -, hindex, hdocuments⟩
    refine ⟨rfl, ?_, .inr hdocuments, ?_⟩
    · rw [Shelf.index, Table.map_insert]
      exact hindex
    · intro other s hs
      rcases Table.find?_insert_eq_some.1 hs with ⟨-, rfl⟩ | ⟨-, hs⟩
      · exact hsize
      · exact h.size other s hs
  · rw [if_neg hkey, Bool.eq_false_iff.2 hkey]
    exact .pure ⟨rfl, h⟩

/-! ### Sweeping -/

theorem staleKeys_index (c : Cache) (now : Stamp) (m : Shelf) :
    c.staleKeys now m.index =
      (m.entries.filter fun e => !e.2.isFresh c.lifetime now).map (·.1) := by
  have hstale (e : String × Stored) :
      (c.toEntry e.1 e.2.record).isFresh now = e.2.isFresh c.lifetime now :=
    e.2.isFresh_entry c.lifetime e.1 now
  rw [staleKeys, Shelf.index, Table.map, List.filter_map, List.map_map]
  simp only [Function.comp_def, hstale]

theorem foldl_erase_staleKeys (c : Cache) (now : Stamp) (m : Shelf) :
    (c.staleKeys now m.index).foldl Table.erase m = m.sweep c.lifetime now := by
  apply Table.ext_entries
  rw [Table.foldl_erase_entries, staleKeys_index]
  apply List.filter_congr
  intro e he
  have hkeys : e.1 ∈ ((m.entries.filter fun e => !e.2.isFresh c.lifetime now).map (·.1)) ↔
      e.2.isFresh c.lifetime now = false := by
    constructor
    · intro hmem
      obtain ⟨f, hf, heq⟩ := List.mem_map.1 hmem
      obtain ⟨hf, hstale⟩ := List.mem_filter.1 hf
      -- a key is on the shelf once
      have hsame := (m.mem_entries_iff f.1 f.2).1 hf
      rw [heq, (m.mem_entries_iff e.1 e.2).1 he] at hsame
      rw [Option.some.inj hsame]
      simpa using hstale
    · intro hstale
      exact List.mem_map.2 ⟨e, List.mem_filter.2 ⟨he, by simp [hstale]⟩, rfl⟩
  simp only [hkeys]
  cases e.2.isFresh c.lifetime now <;> rfl

theorem HasDocuments.erase (h : c.HasDocuments d m) (key : String) :
    c.HasDocuments d (m.erase key) := by
  refine ⟨h.leads, fun other s hs => ?_, fun other s hs => ?_⟩
  · obtain ⟨-, hs⟩ := Table.find?_erase_eq_some.1 hs
    exact h.isKey other s hs
  · obtain ⟨-, hs⟩ := Table.find?_erase_eq_some.1 hs
    exact h.read other s hs

theorem HasDocuments.remove (h : c.HasDocuments d m) (hkey : Cache.isKey key)
    (hremove : d.remove (c.documentPath key) = .ok d') :
    c.HasDocuments d' (m.erase key) ∧ d'.read c.indexPath = d.read c.indexPath := by
  obtain ⟨p, hp⟩ := h.leads
  obtain ⟨hleads, hothers⟩ := Disk.removed_joinPath hp (isPlain_documentName hkey) hremove
  refine ⟨⟨⟨p, hleads⟩, (h.erase key).isKey, fun other s hs => ?_⟩, ?_⟩
  · obtain ⟨hne, hs⟩ := Table.find?_erase_eq_some.1 hs
    have hother := h.isKey other s hs
    rw [← h.read other s hs]
    exact hothers _ (isPlain_documentName hother) fun heq => hne (documentName_injective heq)
  · exact hothers _ isPlain_indexName (documentName_ne_indexName key).symm

theorem ensures_removeAll {keys : List String} (hkeys : ∀ key ∈ keys, isKey key)
    (h : c.HasDocuments w.disk m) (n : Nat) :
    (c.removeAll keys m.index n).Ensures others w fun r w' =>
      r = (Shelf.index (keys.foldl Table.erase m), n + keys.length) ∧
        c.HasDocuments w'.disk (keys.foldl Table.erase m) ∧
        w'.disk.read c.indexPath = w.disk.read c.indexPath := by
  induction keys generalizing w m n with
  | nil => exact .pure ⟨rfl, h, rfl⟩
  | cons key keys ih =>
      have hkey := hkeys key List.mem_cons_self
      have hmore : ∀ key ∈ keys, isKey key := fun k hk => hkeys k (List.mem_cons_of_mem _ hk)
      have hindex : m.index.erase key = Shelf.index (m.erase key) := (Table.map_erase _ m key).symm
      have hcount : n + 1 + keys.length = n + (key :: keys).length := by
        rw [List.length_cons]
        omega
      rw [removeAll]
      -- a document that is gone already counts as removed
      refine .remove (fun d hremove => ?_) (fun _ => ?_)
      · obtain ⟨hdocuments, hread⟩ := h.remove hkey hremove
        simp only [hindex]
        refine (ih (w := { w with disk := d }) hmore hdocuments (n + 1)).mono ?_
        rintro r w' ⟨rfl, hdocuments', hread'⟩
        exact ⟨by rw [hcount]; rfl, hdocuments', hread'.trans hread⟩
      · simp only [hindex]
        refine (ih hmore (h.erase key) (n + 1)).mono ?_
        rintro r w' ⟨rfl, hdocuments', hread'⟩
        exact ⟨by rw [hcount]; rfl, hdocuments', hread'⟩

theorem size_sweep (h : ∀ key s, m.find? key = some s → s.document.length < bound64)
    (lifetime : Duration) (now : Stamp) :
    ∀ key s, (m.sweep lifetime now).find? key = some s → s.document.length < bound64 := by
  intro key s hs
  rw [Shelf.sweep, Table.find?_filter, Option.filter_eq_some_iff] at hs
  exact h key s hs.1

theorem length_staleKeys (c : Cache) (now : Stamp) (m : Shelf) :
    (c.staleKeys now m.index).length = m.entries.countP fun e => !e.2.isFresh c.lifetime now := by
  rw [staleKeys_index, List.length_map, List.countP_eq_length_filter]

theorem ensures_sweep (hc : c.isEnabled) (h : c.Holds w.disk m) :
    c.sweep.Ensures others w fun r w' =>
      .sweep r = (m.answer c.lifetime w.now .sweep).1 ∧
        c.Holds w'.disk (m.answer c.lifetime w.now .sweep).2 := by
  rw [sweep, Shelf.answer, hc]
  refine .inside ((ensures_load h.index h.size_index).bind ?_)
  rintro r w₁ ⟨rfl, rfl⟩
  refine .now ?_
  have hlength := length_staleKeys c w₁.now m
  have hswept := foldl_erase_staleKeys c w₁.now m
  by_cases hnone : c.staleKeys w₁.now m.index = []
  · -- nothing is written, so a shelf that never was written need not be
    rw [hnone] at hlength hswept ⊢
    refine .pure ⟨?_, ?_⟩
    · rw [← hlength]
      rfl
    · rw [← hswept]
      exact h
  · rcases h.documents with ⟨rfl, -⟩ | hdocuments
    · exact absurd rfl hnone
    · -- the index alone says what is stale, so its keys have to be keys of files
      have hkeys : ∀ key ∈ c.staleKeys w₁.now m.index, isKey key := by
        intro key hkey
        rw [staleKeys_index] at hkey
        obtain ⟨e, he, rfl⟩ := List.mem_map.1 hkey
        exact hdocuments.isKey e.1 e.2 ((m.mem_entries_iff e.1 e.2).1 (List.mem_filter.1 he).1)
      refine (ensures_removeAll hkeys hdocuments 0).bind ?_
      rintro r w₂ ⟨rfl, hdocuments, -⟩
      have hpos : 0 < 0 + (c.staleKeys w₁.now m.index).length := by
        have hne := List.length_pos_iff.2 hnone
        omega
      rw [hswept] at hdocuments ⊢
      simp only [hpos, if_true]
      refine (ensures_save hdocuments).bind ?_
      rintro r w₃ ⟨-, -, hindex, hdocuments⟩
      refine .pure ⟨?_, hindex, .inr hdocuments, size_sweep h.size c.lifetime w₁.now⟩
      rw [← hlength, Nat.zero_add]

/-! ### Looking up -/

theorem ensures_entry (hc : c.isEnabled) (h : c.Holds w.disk m) (key : String) :
    (c.entry key).Ensures others w fun r w' =>
      r = (m.find? key).map (·.entry c.lifetime key) ∧ w' = w := by
  rw [entry, hc]
  refine (ensures_index h.index h.size_index).bind ?_
  rintro i w' ⟨rfl, rfl⟩
  refine .pure ⟨?_, rfl⟩
  rw [Shelf.index, Table.find?_map, Option.map_map]
  rfl

theorem ensures_entries (hc : c.isEnabled) (h : c.Holds w.disk m) :
    c.entries.Ensures others w fun r w' =>
      r = m.entries.map (fun e => e.2.entry c.lifetime e.1) ∧ w' = w := by
  rw [entries, hc]
  refine (ensures_index h.index h.size_index).bind ?_
  rintro i w' ⟨rfl, rfl⟩
  refine .pure ⟨?_, rfl⟩
  rw [Shelf.index, Table.map, List.map_map]
  rfl

theorem ensures_isFresh (hc : c.isEnabled) (h : c.Holds w.disk m) (key : String) :
    (c.isFresh key).Ensures others w fun r w' =>
      r = (m.find? key).any (·.isFresh c.lifetime w.now) ∧ w' = w := by
  refine (ensures_entry hc h key).bind ?_
  rintro r w' ⟨rfl, rfl⟩
  cases m.find? key with
  | none => exact .pure ⟨rfl, rfl⟩
  | some s => exact .now (.pure ⟨s.isFresh_entry c.lifetime key w'.now, rfl⟩)

theorem ensures_get (hc : c.isEnabled) (h : c.Holds w.disk m) (key : String) :
    (c.get key).Ensures others w fun r w' =>
      r = ((m.find? key).filter (·.isFresh c.lifetime w.now)).map Stored.document ∧ w' = w := by
  refine (ensures_entry hc h key).bind ?_
  rintro r w' ⟨rfl, rfl⟩
  cases hkey : m.find? key with
  | none => exact .pure ⟨rfl, rfl⟩
  | some s =>
      refine .now ?_
      rw [Stored.isFresh_entry, Option.filter_some]
      by_cases hfresh : s.isFresh c.lifetime w'.now
      · rw [if_pos hfresh, if_pos hfresh]
        rcases h.documents with ⟨rfl, -⟩ | hdocuments
        · cases hkey
        · refine .read fun _ => .pure ⟨?_, rfl⟩
          rw [hdocuments.read key s hkey]
          rfl
      · rw [if_neg hfresh, if_neg hfresh]
        exact .pure ⟨rfl, rfl⟩

theorem ensures_size (hc : c.isEnabled) (h : c.Holds w.disk m) :
    c.size.Ensures others w fun r w' => r = m.size ∧ w' = w := by
  refine (ensures_entries hc h).bind ?_
  rintro r w' ⟨rfl, rfl⟩
  exact .pure ⟨List.length_map _, rfl⟩

theorem ensures_summary (hc : c.isEnabled) (h : c.Holds w.disk m) :
    c.summary.Ensures others w fun r w' =>
      r = { entries := m.size
            fresh := m.entries.countP fun e => e.2.isFresh c.lifetime w.now
            bytes := (m.entries.map fun e => e.2.document.length).foldr (· + ·) 0 % bound64 } ∧
        w' = w := by
  refine (ensures_entries hc h).bind ?_
  rintro r w' ⟨rfl, rfl⟩
  refine .now (.pure ⟨?_, rfl⟩)
  rw [Summary.ofEntries, List.length_map, List.countP_map, List.map_map]
  simp only [Function.comp_def, Stored.isFresh_entry]
  rfl

/-! ### Whole runs -/

def job (c : Cache) : CacheCall → Job CacheAnswer
  | .put key sourceName document => .put <$> c.put key sourceName document
  | .sweep => .sweep <$> c.sweep
  | .get key => .get <$> c.get key
  | .isFresh key => .isFresh <$> c.isFresh key
  | .entry key => .entry <$> c.entry key
  | .entries => .entries <$> c.entries
  | .size => .size <$> c.size
  | .summary => .summary <$> c.summary

def serve (others : World.Others) (c : Cache) :
    World → List (Stamp × CacheCall) → List CacheAnswer × World
  | w, [] => ([], w)
  | w, (now, call) :: rest =>
      let served := (c.job call).runWith others { w with now }
      let more := serve others c served.2 rest
      (served.1 :: more.1, more.2)

/-- In the course of these calls nothing that is asked of the disk is refused. -/
def servesSmoothly (others : World.Others) (c : Cache) : World → List (Stamp × CacheCall) → Bool
  | _, [] => true
  | w, (now, call) :: rest =>
      (c.job call).isSmooth others { w with now } &&
        servesSmoothly others c ((c.job call).runWith others { w with now }).2 rest

end Cache

def CacheCall.isMeasurable : CacheCall → Bool
  | .put _ _ document => document.length < bound64
  | _ => true

namespace Cache

variable {c : Cache} {m : Shelf} {others : World.Others} {w : World}

theorem ensures_lookup {α : Type} {t : Job α} {a : α} (answer : α → CacheAnswer)
    (h : c.Holds w.disk m) (ht : t.Ensures others w fun r w' => r = a ∧ w' = w) :
    (answer <$> t).Ensures others w fun r w' => r = answer a ∧ c.Holds w'.disk m := by
  refine .map (ht.mono ?_)
  rintro r w' ⟨rfl, rfl⟩
  exact ⟨rfl, h⟩

/-- A call is answered from the shelf, and the disk holds the shelf after it. -/
theorem ensures_job (hc : c.isEnabled) (h : c.Holds w.disk m) {call : CacheCall}
    (hcall : call.isMeasurable) :
    (c.job call).Ensures others w fun r w' =>
      r = (m.answer c.lifetime w.now call).1 ∧
        c.Holds w'.disk (m.answer c.lifetime w.now call).2 := by
  cases call with
  | put key name document => exact .map (ensures_put hc h (of_decide_eq_true hcall))
  | sweep => exact .map (ensures_sweep hc h)
  | get key => exact ensures_lookup .get h (ensures_get hc h key)
  | isFresh key => exact ensures_lookup .isFresh h (ensures_isFresh hc h key)
  | entry key => exact ensures_lookup .entry h (ensures_entry hc h key)
  | entries => exact ensures_lookup .entries h (ensures_entries hc h)
  | size => exact ensures_lookup .size h (ensures_size hc h)
  | summary => exact ensures_lookup .summary h (ensures_summary hc h)

theorem serve_of_holds (hc : c.isEnabled) {calls : List (Stamp × CacheCall)}
    (hcalls : ∀ call ∈ calls, call.2.isMeasurable) (h : c.Holds w.disk m)
    (hsmooth : c.servesSmoothly others w calls) :
    (c.serve others w calls).1 = (m.serve c.lifetime calls).1 ∧
      c.Holds (c.serve others w calls).2.disk (m.serve c.lifetime calls).2 := by
  induction calls generalizing w m with
  | nil => exact ⟨rfl, h⟩
  | cons call rest ih =>
      rw [servesSmoothly, Bool.and_eq_true] at hsmooth
      obtain ⟨hfirst, hrest⟩ := hsmooth
      obtain ⟨hanswer, hholds⟩ := ensures_job (w := { w with now := call.1 }) hc h
        (hcalls call List.mem_cons_self) hfirst
      obtain ⟨hanswers, hend⟩ := ih (fun q hq => hcalls q (List.mem_cons_of_mem _ hq)) hholds hrest
      refine ⟨?_, hend⟩
      rw [serve, Shelf.serve, List.cons.injEq]
      exact ⟨hanswer, hanswers⟩

/-! ### Where a run starts -/

theorem startsBare_of_missing {d : Disk} (hd : d.IsTree)
    (hback : ['.', '.'] ∉ c.folder.toList.splitOn '/') (h : ∀ p, ¬d.Leads c.folder p) :
    c.StartsBare d := by
  intro name hname content hread
  obtain ⟨p, hp, hfile⟩ := Disk.leads_of_read hname hread
  have hadds := Disk.addsFolders_makeFolders d c.folder
  have hfolder := hd _ _ _ (hadds.noFile _ _ hfile)
  exact h p (Disk.walk_of_isTree hback hd hfolder hp)

theorem startsEmpty_of_missing {d : Disk} (hd : d.IsTree)
    (hback : ['.', '.'] ∉ c.folder.toList.splitOn '/') (h : ∀ p, ¬d.Leads c.folder p) :
    c.StartsEmpty d :=
  (startsBare_of_missing hd hback h).startsEmpty

/-- A cache that starts empty answers every sequence of calls as an empty shelf does, if the disk
does what is asked of it. What the shelf holds under a key is up to the puts of that key and the
sweeps. -/
theorem serve_eq_shelf (others : World.Others) (hc : c.isEnabled) (hstart : c.StartsEmpty w.disk)
    {calls : List (Stamp × CacheCall)} (hcalls : ∀ call ∈ calls, call.2.isMeasurable)
    (hsmooth : c.servesSmoothly others w calls) :
    (c.serve others w calls).1 = (Shelf.serve c.lifetime Table.empty calls).1 ∧
      ∀ key, (Shelf.serve c.lifetime Table.empty calls).2.find? key =
        calls.foldl (Shelf.keep c.lifetime key) none := by
  refine ⟨(serve_of_holds hc hcalls hstart.holds hsmooth).1, fun key => ?_⟩
  rw [Shelf.find?_serve, Table.find?_empty]

/-- A document is stored, read, swept a day later and gone,
on a disk with nothing on it at first. -/
theorem serve_eq_shelf_day :
    let c : Cache := { folder := "cache" }
    let w : World :=
      { disk := .empty, now := default, remote := scripted [] (.error .timeout),
        reading := fun _ => .zero }
    let tomorrow : Stamp := ⟨1, 0, 0, by decide, by decide, by decide, by decide, by decide⟩
    let calls : List (Stamp × CacheCall) :=
      [(default, .put "rune" "Rune" [60, 62]), (default, .get "rune"), (tomorrow, .sweep),
        (tomorrow, .get "rune")]
    (c.serve World.nobody w calls).1 = (Shelf.serve c.lifetime Table.empty calls).1 ∧
      ∀ key, (Shelf.serve c.lifetime Table.empty calls).2.find? key =
        calls.foldl (Shelf.keep c.lifetime key) none := by
  have hstart : ({ folder := "cache" } : Cache).StartsEmpty .empty := by
    apply startsEmpty_of_missing
    · intro name p n hn
      cases hn
    · decide
    · intro p hp
      cases hp
  intro c w tomorrow calls
  have hcalls : ∀ call ∈ calls, call.2.isMeasurable := by decide
  have hsmooth : c.servesSmoothly World.nobody w calls := by decide +kernel
  exact serve_eq_shelf (c := c) (w := w) World.nobody rfl hstart hcalls hsmooth

end Cache

end StatAlmanac
