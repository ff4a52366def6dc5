import StatAlmanac.Proofs.Cache.View
import StatAlmanac.Proofs.Job.Pact

/-!
What a `put` and a `sweep` do inside the gate, where nobody else changes the disk:
which view they leave behind, and which views show in between. The time of day may
go on meanwhile. That the disk refuses nothing is part of the pact.
-/

namespace StatAlmanac

def Effect.isFileWork : Effect → Bool
  | .read _ | .write _ _ | .rename _ _ | .remove _ | .makeFolders _ | .now => true
  | _ => false

/-- How a disk that refuses nothing answers who alone works on it. -/
def Disk.Answers (clock : Stamp → Prop) (d : Disk) : (e : Effect) → e.Reply → Disk → Prop
  | .read path, r, d' => r = d.read path ∧ r ≠ .error .refused ∧ d' = d
  | .write path content, r, d' => r = .ok () ∧ d.write path content = .ok d'
  | .rename source target, r, d' => r = .ok () ∧ d.rename source target = .ok d'
  | .remove path, r, d' =>
      (r = .ok () ∧ d.remove path = .ok d') ∨
        (r = .error .missing ∧ d.remove path = .error .missing ∧ d' = d)
  | .makeFolders path, r, d' => r = .ok () ∧ d.makeFolders path = (.ok (), d')
  | .now, now, d' => clock now ∧ d' = d
  | _, _, _ => False

theorem Disk.answers_perform {others : World.Others} {w : World} {e : Effect}
    (clock : Stamp → Prop) (hwork : e.isFileWork) (hnow : clock w.now)
    (hgranted : e.isGranted (w.perform others e).1) :
    w.disk.Answers clock e (w.perform others e).1 (w.perform others e).2.disk ∧
      (w.perform others e).2 = { w with disk := (w.perform others e).2.disk } := by
  cases e with
  | read path =>
      refine ⟨⟨rfl, fun hrefused => ?_, rfl⟩, rfl⟩
      rw [hrefused] at hgranted
      cases hgranted
  | write path content =>
      simp only [World.perform] at hgranted ⊢
      cases hd : w.disk.write path content with
      | ok d => exact ⟨⟨rfl, hd⟩, rfl⟩
      | error f =>
          rw [hd] at hgranted
          cases hgranted
  | rename source target =>
      simp only [World.perform] at hgranted ⊢
      cases hd : w.disk.rename source target with
      | ok d => exact ⟨⟨rfl, hd⟩, rfl⟩
      | error f =>
          rw [hd] at hgranted
          cases hgranted
  | remove path =>
      simp only [World.perform] at hgranted ⊢
      cases hd : w.disk.remove path with
      | ok d => exact ⟨.inl ⟨rfl, hd⟩, rfl⟩
      | error f =>
          cases f with
          | missing => exact ⟨.inr ⟨rfl, hd, rfl⟩, rfl⟩
          | refused =>
              rw [hd] at hgranted
              cases hgranted
  | makeFolders path =>
      simp only [World.perform, World.makeFolders] at hgranted ⊢
      cases hd : (w.disk.makeFolders path).1 with
      | ok u => exact ⟨⟨rfl, Prod.ext hd rfl⟩, trivial⟩
      | error f =>
          rw [hd] at hgranted
          cases hgranted
  | now => exact ⟨⟨hnow, rfl⟩, rfl⟩
  | _ => cases hwork

namespace Cache

variable {c : Cache} {d d' : Disk} {p : Place} {key name : String} {document content : Bytes}
  {i : Index} {v : View} {now : Stamp} {clock : Stamp → Prop} {I : View → Prop} {α : Type}
  {Q : α → Disk → Prop}

/-- The pact of a job that alone works on the disk. All that shows in between satisfies `I`. -/
def alone (c : Cache) (clock : Stamp → Prop) (I : View → Prop) : Pact Disk where
  allows d e := e.isFileWork ∧ I (c.view d)
  expects := Disk.Answers clock

theorem ensures_of_alone {others : World.Others} {w : World} {t : Job α}
    (h : t.Abides (c.alone (· = w.now) I) w.disk Q) :
    t.Ensures others w fun a w' => Q a w'.disk ∧ w' = { w with disk := w'.disk } := by
  refine (h.ensures (fun w' d => w'.disk = d ∧ w' = { w with disk := d }) ?_
    ⟨rfl, rfl⟩).mono ?_
  · rintro w' d e ⟨rfl, hw'⟩ ⟨hwork, -⟩ hgranted
    have hnow : w'.now = w.now := by rw [hw']
    obtain ⟨hanswer, hrest⟩ := Disk.answers_perform (· = w.now) hwork hnow hgranted
    refine ⟨_, hanswer, rfl, ?_⟩
    rw [hrest, hw']
  · rintro a w' ⟨d, hQ, rfl, hw'⟩
    exact ⟨hQ, hw'⟩

/-! ### The effects -/

theorem abides_read {path : String} {f : Except DiskFault Bytes → Job α} (hI : I (c.view d))
    (h : d.read path ≠ .error .refused → (f (d.read path)).Abides (c.alone clock I) d Q) :
    (Job.read path >>= f).Abides (c.alone clock I) d Q := by
  refine .act ⟨rfl, hI⟩ ?_
  rintro r d' ⟨rfl, hgranted, rfl⟩
  exact h hgranted

theorem abides_write {path : String} {f : Except DiskFault Unit → Job α} (hI : I (c.view d))
    (h : ∀ d', d.write path content = .ok d' → (f (.ok ())).Abides (c.alone clock I) d' Q) :
    (Job.write path content >>= f).Abides (c.alone clock I) d Q := by
  refine .act ⟨rfl, hI⟩ ?_
  rintro r d' ⟨rfl, hd'⟩
  exact h d' hd'

theorem abides_rename {source target : String} {f : Except DiskFault Unit → Job α}
    (hI : I (c.view d))
    (h : ∀ d', d.rename source target = .ok d' → (f (.ok ())).Abides (c.alone clock I) d' Q) :
    (Job.rename source target >>= f).Abides (c.alone clock I) d Q := by
  refine .act ⟨rfl, hI⟩ ?_
  rintro r d' ⟨rfl, hd'⟩
  exact h d' hd'

theorem abides_remove {path : String} {f : Except DiskFault Unit → Job α} (hI : I (c.view d))
    (hdone : ∀ d', d.remove path = .ok d' → (f (.ok ())).Abides (c.alone clock I) d' Q)
    (hmissing : d.remove path = .error .missing →
      (f (.error .missing)).Abides (c.alone clock I) d Q) :
    (Job.remove path >>= f).Abides (c.alone clock I) d Q := by
  refine .act ⟨rfl, hI⟩ ?_
  rintro r d' (⟨rfl, hd'⟩ | ⟨rfl, hgone, rfl⟩)
  · exact hdone d' hd'
  · exact hmissing hgone

theorem abides_makeFolders {path : String} {f : Except DiskFault Unit → Job α} (hI : I (c.view d))
    (h : ∀ d', d.makeFolders path = (.ok (), d') → (f (.ok ())).Abides (c.alone clock I) d' Q) :
    (Job.makeFolders path >>= f).Abides (c.alone clock I) d Q := by
  refine .act ⟨rfl, hI⟩ ?_
  rintro r d' ⟨rfl, hd'⟩
  exact h d' hd'

theorem abides_now {f : Stamp → Job α} (hI : I (c.view d))
    (h : ∀ now, clock now → (f now).Abides (c.alone clock I) d Q) :
    (Job.now >>= f).Abides (c.alone clock I) d Q := by
  refine .act ⟨rfl, hI⟩ ?_
  rintro now d' ⟨hnow, rfl⟩
  exact h now hnow

/-! ### Files -/

theorem abides_load (hI : I (c.view d)) :
    c.load.Abides (c.alone clock I) d fun r d' => r = c.loadOn d ∧ d' = d := by
  refine abides_read hI fun hgranted => ?_
  rw [loadOn]
  cases hread : d.read c.indexPath with
  | ok content => exact ⟨rfl, rfl⟩
  | error e =>
      cases e with
      | missing => exact ⟨rfl, rfl⟩
      | refused => exact absurd hread hgranted

theorem abides_index (hI : I (c.view d)) :
    c.index.Abides (c.alone clock I) d fun r d' => r = (c.view d).index ∧ d' = d := by
  refine (abides_load hI).bind ?_
  rintro r d' ⟨rfl, rfl⟩
  exact ⟨rfl, rfl⟩

/-- Up to the move of the file all shows as before. -/
theorem abides_writeFile (hd : d.Leads c.folder p) (hname : Disk.IsPlain name) (hI : I (c.view d)) :
    (writeFile (joinPath c.folder name) content).Abides (c.alone clock I) d fun r d' =>
      r = .ok () ∧ d'.Leads c.folder p ∧ d'.read (joinPath c.folder name) = .ok content ∧
        ∀ other, Disk.IsPlain other → other ≠ temporaryPath name → other ≠ name →
          d'.read (joinPath c.folder other) = d.read (joinPath c.folder other) := by
  have hbeside := isPlain_temporaryPath hname
  have hne : temporaryPath name ≠ name := by
    intro h
    have hlength := congrArg (fun s => s.toList.length) h
    simp [temporaryPath, temporaryEnding] at hlength
  rw [writeFile, temporaryPath_joinPath c.folder hname]
  refine abides_write hI fun d₁ hwrite => ?_
  obtain ⟨-, -, hwritten⟩ := Disk.written_joinPath hd hbeside hwrite
  have hview : c.view d₁ = c.view d := view_beside hwritten
  refine abides_rename (hview ▸ hI) fun d₂ hrename => .pure ?_
  exact ⟨rfl, Disk.replace_joinPath hd hbeside hname hne hwrite hrename⟩

theorem abides_writeDocument (hd : d.Leads c.folder p) (hkey : isKey key) (hI : I (c.view d)) :
    (writeFile (c.documentPath key) document).Abides (c.alone clock I) d fun r d' =>
      r = .ok () ∧ d'.Leads c.folder p ∧ c.view d' = (c.view d).store key document := by
  refine (abides_writeFile hd (isPlain_documentName hkey) hI).mono ?_
  rintro r d' ⟨rfl, hleads, hread, hothers⟩
  exact ⟨rfl, hleads, view_store hkey hread hothers⟩

theorem abides_save (hd : d.Leads c.folder p) (hsize : ∀ e ∈ i.entries, e.2.size < bound64)
    (hI : I (c.view d)) :
    (c.save i).Abides (c.alone clock I) d fun r d' =>
      r = .ok () ∧ d'.Leads c.folder p ∧ c.view d' = { c.view d with index := i } := by
  refine (abides_writeFile hd isPlain_indexName hI).mono ?_
  rintro r d' ⟨rfl, hleads, hread, hothers⟩
  exact ⟨rfl, hleads, view_save hsize hread hothers⟩

/-! ### Storing -/

def lay (c : Cache) (key name : String) (document : Bytes) (now : Stamp) :
    Job (Except CacheError Unit) := do
  match ← Job.makeFolders c.folder with
  | .error _ => return .error (.disk c.folder)
  | .ok () =>
      match ← writeFile (c.documentPath key) document with
      | .error e => return .error e
      | .ok () => c.save ((← c.index).insert key ⟨name, now, document.length⟩)

theorem put_eq (c : Cache) (key name : String) (document : Bytes) :
    c.put key name document = (do
      let now ← Job.now
      if !c.isEnabled then return .ok ()
      if !isKey key then return .error (.invalidKey key)
      Job.inside .index (c.lay key name document now)) := rfl

theorem size_insert (hi : ∀ e ∈ i.entries, e.2.size < bound64) {r : Record}
    (hr : r.size < bound64) : ∀ e ∈ (i.insert key r).entries, e.2.size < bound64 := by
  intro e he
  rcases Table.mem_place he with rfl | he
  · exact hr
  · exact hi e he

/-- Of a `put` the document shows first, and its record after it. -/
theorem abides_lay (hkey : isKey key) (hsize : document.length < bound64)
    (hfolder : ∀ d', d.makeFolders c.folder = (.ok (), d') → c.view d' = v) (hI : I (c.view d))
    (hv : I v) (hstored : I (v.store key document)) :
    (c.lay key name document now).Abides (c.alone clock I) d fun r d' =>
      r = .ok () ∧ (∃ p, d'.Leads c.folder p) ∧ c.view d' = v.put key name now document := by
  refine abides_makeFolders hI fun d₁ hmake => ?_
  obtain rfl := hfolder d₁ hmake
  obtain ⟨p, hp⟩ : ∃ p, d₁.Leads c.folder p := by
    have hleads := Disk.leads_makeFolders (congrArg Prod.fst hmake)
    rwa [hmake] at hleads
  refine (abides_writeDocument hp hkey hv).bind ?_
  rintro r d₂ ⟨rfl, hp₂, hview⟩
  refine (abides_index (hview ▸ hstored)).bind ?_
  rintro i d₃ ⟨rfl, rfl⟩
  have hrecord : ∀ e ∈ ((c.indexOn d₃).insert key ⟨name, now, document.length⟩).entries,
      e.2.size < bound64 := size_insert (size_indexOn c d₃) hsize
  refine (abides_save hp₂ hrecord (hview ▸ hstored)).mono ?_
  rintro r d₄ ⟨rfl, hp₄, hsaved⟩
  refine ⟨rfl, ⟨p, hp₄⟩, ?_⟩
  have hindex : c.indexOn d₃ = ((c.view d₁).store key document).index :=
    congrArg View.index hview
  rw [hsaved, hview, View.put, hindex]
  rfl

/-! ### Sweeping -/

def clean (c : Cache) : Job Nat := do
  match ← c.load with
  | none => return 0
  | some i =>
      let (swept, removed) ← c.removeAll (c.staleKeys (← Job.now) i) i 0
      if 0 < removed then let _ ← c.save swept
      return removed

theorem sweep_eq (c : Cache) :
    c.sweep = (do
      if !c.isEnabled then return 0
      Job.inside .index c.clean) := rfl

theorem abides_removeAll {keys : List String} (hkeys : ∀ key ∈ keys, isKey key)
    (hd : d.Leads c.folder p) (hI : ∀ gone, gone ⊆ keys → I ((c.view d).clear gone)) (i : Index)
    (n : Nat) :
    (c.removeAll keys i n).Abides (c.alone clock I) d fun r d' =>
      r = (keys.foldl Table.erase i, n + keys.length) ∧ d'.Leads c.folder p ∧
        c.view d' = (c.view d).clear keys := by
  induction keys generalizing d i n with
  | nil => exact .pure ⟨rfl, hd, View.clear_nil.symm⟩
  | cons key keys ih =>
      have hkey := hkeys key List.mem_cons_self
      have hmore : ∀ key ∈ keys, isKey key := fun k hk => hkeys k (List.mem_cons_of_mem _ hk)
      have hI₀ : I (c.view d) := by simpa using hI [] (List.nil_subset _)
      have hcount : n + 1 + keys.length = n + (key :: keys).length := by
        rw [List.length_cons]
        omega
      -- the document is gone either way, and so it is in the view
      have hrest (d₁ : Disk) (hd₁ : d₁.Leads c.folder p)
          (hview : c.view d₁ = (c.view d).clear [key]) :
          (c.removeAll keys (i.erase key) (n + 1)).Abides (c.alone clock I) d₁ fun r d' =>
            r = ((key :: keys).foldl Table.erase i, n + (key :: keys).length) ∧
              d'.Leads c.folder p ∧ c.view d' = (c.view d).clear (key :: keys) := by
        have hI₁ (gone : List String) (hgone : gone ⊆ keys) : I ((c.view d₁).clear gone) := by
          rw [hview, View.clear_clear]
          exact hI _ (List.cons_subset_cons key hgone)
        refine (ih hmore hd₁ hI₁ (i.erase key) (n + 1)).mono ?_
        rintro r d' ⟨rfl, hd', hview'⟩
        refine ⟨by rw [hcount]; rfl, hd', ?_⟩
        rw [hview', hview, View.clear_clear]
        rfl
      rw [removeAll]
      refine abides_remove hI₀ (fun d₁ hremove => ?_) fun hmissing => ?_
      · obtain ⟨hd₁, hview⟩ := view_remove hd hkey hremove
        exact hrest d₁ hd₁ hview
      · exact hrest d hd (View.clear_of_none (documents_of_missing hmissing)).symm

theorem size_foldl_erase (hi : ∀ e ∈ i.entries, e.2.size < bound64) (keys : List String) :
    ∀ e ∈ (keys.foldl Table.erase i).entries, e.2.size < bound64 := by
  intro e he
  rw [Table.foldl_erase_entries] at he
  exact hi e (List.mem_filter.1 he).1

/-- Of a `sweep` it shows first that documents are gone, and their records after them. An index that
cannot be read is left as it is. -/
theorem abides_clean (hkeys : ∀ key r, (c.view d).index.find? key = some r → isKey key)
    (hI₀ : I (c.view d))
    (hI : ∀ now gone, clock now → gone ⊆ c.staleKeys now (c.view d).index →
      I ((c.view d).clear gone)) :
    c.clean.Abides (c.alone clock I) d fun _ d' =>
      (c.Placed d → c.Placed d') ∧
        (c.view d' = c.view d ∨ ∃ now, clock now ∧ c.view d' = (c.view d).sweep c now) := by
  refine (abides_load hI₀).bind ?_
  rintro r d₁ ⟨rfl, rfl⟩
  cases hload : c.loadOn d₁ with
  | none => exact .pure ⟨id, .inl rfl⟩
  | some i =>
      have hi : (c.view d₁).index = i := by rw [view, indexOn, hload, Option.getD_some]
      refine abides_now hI₀ fun now hnow => ?_
      by_cases hnone : c.staleKeys now i = []
      · rw [hnone]
        exact .pure ⟨id, .inl rfl⟩
      · -- something is in the index, so the folder is there
        obtain ⟨key, hstale⟩ := List.exists_mem_of_ne_nil _ hnone
        obtain ⟨r, hr, -⟩ := View.mem_staleKeys.1 hstale
        obtain ⟨content, hread⟩ := exists_read_of_find? (c := c) (d := d₁) (hi ▸ hr)
        obtain ⟨p, hp, -⟩ := Disk.leads_of_read isPlain_indexName hread
        have hvalid : ∀ key ∈ c.staleKeys now i, isKey key := by
          intro key hkey
          obtain ⟨r, hr, -⟩ := View.mem_staleKeys.1 hkey
          exact hkeys key r (hi ▸ hr)
        refine (abides_removeAll hvalid hp (fun gone => hi ▸ hI now gone hnow) i 0).bind ?_
        rintro r d₂ ⟨rfl, hp₂, hview₂⟩
        have hpos : 0 < 0 + (c.staleKeys now i).length := by
          have := List.length_pos_iff.2 hnone
          omega
        have hI₂ : I (c.view d₂) := by
          rw [hview₂]
          exact hi ▸ hI now _ hnow (hi ▸ List.Subset.refl _)
        simp only [hpos, if_true]
        refine (abides_save hp₂ (size_foldl_erase (hi ▸ size_indexOn c d₁) _) hI₂).bind ?_
        rintro r d₃ ⟨rfl, hp₃, hview₃⟩
        refine .pure ⟨fun _ => .inr ⟨p, hp₃⟩, .inr ⟨now, hnow, ?_⟩⟩
        rw [hview₃, hview₂, View.sweep, hi]

end Cache

end StatAlmanac
