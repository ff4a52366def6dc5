import StatAlmanac.Proofs.Cache.Inside
import StatAlmanac.Proofs.Cache.Sweeping

/-!
The index on the disk. Each call reads it anew, so what one call wrote is what the
next one goes by. An index that was written is read as the same index, and a call
writes back what it read but for the record that it is about. So a record lasts,
down to the nanosecond, until a `put` of its own key or a sweep that finds it stale.
-/

namespace StatAlmanac

namespace Cache

variable {c : Cache} {d d' : Disk} {i i' j : Index} {key name : String} {document : Bytes}
  {now : Stamp} {call : CacheCall} {calls : List (Stamp × CacheCall)} {r : Record}
  {others : World.Others} {w : World}

/-! ### What is listed -/

def Lists (c : Cache) (d : Disk) (i : Index) : Prop :=
  (d.read c.indexPath).toOption.bind Index.read? = some i

namespace Lists

theorem loadOn_eq (h : c.Lists d i) : c.loadOn d = some i := by
  obtain ⟨content, hread, hi⟩ := Option.bind_eq_some_iff.1 h
  rw [loadOn, Disk.toOption_eq_some.1 hread]
  exact hi

theorem indexOn_eq (h : c.Lists d i) : c.indexOn d = i := by
  rw [indexOn, h.loadOn_eq, Option.getD_some]

theorem of_read (h : c.Lists d i)
    (hread : (d'.read c.indexPath).toOption = (d.read c.indexPath).toOption) : c.Lists d' i := by
  rw [Lists, hread]
  exact h

theorem size (h : c.Lists d i) : ∀ e ∈ i.entries, e.2.size < bound64 := by
  rw [← h.indexOn_eq]
  exact c.size_indexOn d

theorem opened_eq (h : c.Lists d i) : c.opened d = d := by
  obtain ⟨content, hread, -⟩ := Option.bind_eq_some_iff.1 h
  obtain ⟨p, hp, -⟩ := Disk.leads_of_read isPlain_indexName (Disk.toOption_eq_some.1 hread)
  exact Disk.makeFolders_of_leads hp

end Lists

theorem lists_of_saved (hi : ∀ e ∈ i.entries, e.2.size < bound64)
    (h : Replaces c.indexPath i.write d (.ok ()) d') : c.Lists d' i := by
  rw [Lists, h.read_eq]
  exact Index.read?_write hi

/-- When the index is rewritten, the one before is listed after it or the new one. -/
theorem lists_of_replaces {r : Except CacheError Unit} (h : c.Lists d i)
    (hj : ∀ e ∈ j.entries, e.2.size < bound64) (hsave : Replaces c.indexPath j.write d r d') :
    c.Lists d' i ∨ c.Lists d' j := by
  cases r with
  | ok u => exact .inr (lists_of_saved hj hsave)
  | error e => exact .inl (h.of_read hsave.index_of_error)

/-! ### One call -/

/-- What a call may make of the index. It leaves it as it is, or does to it what it is for. -/
inductive Edits (c : Cache) (now : Stamp) : CacheCall → Index → Index → Prop where
  | none {call : CacheCall} {i : Index} : Edits c now call i i
  | put {key name : String} {document : Bytes} {i : Index} :
      Edits c now (.put key name document) i (i.insert key ⟨name, now, document.length⟩)
  | sweep {gone : List String} {i : Index} (hgone : ∀ key ∈ gone, key ∈ c.staleKeys now i) :
      Edits c now .sweep i (gone.foldl Table.erase i)

/-- The disk lists an index that the call may have made of the one before. -/
def ListsAfter (c : Cache) (now : Stamp) (call : CacheCall) (i : Index) (w : World) : Prop :=
  ∃ i', c.Lists w.disk i' ∧ c.Edits now call i i'

theorem Lists.unedited (h : c.Lists w.disk i) : c.ListsAfter now call i w := ⟨i, h, .none⟩

theorem listsAfter_put (h : c.Lists w.disk i) (hsize : document.length < bound64) :
    (c.put key name document).Yields others w fun _ w' =>
      c.ListsAfter w.now (.put key name document) i w' := by
  refine .step (e := .now) ?_
  cases c.isEnabled with
  | false => exact h.unedited
  | true =>
      cases isKey key with
      | false => exact h.unedited
      | true =>
          refine .inside (.step (e := .makeFolders c.folder) ?_)
          have hopened : (w.disk.makeFolders c.folder).2 = w.disk := h.opened_eq
          simp only [World.perform, World.makeFolders, hopened]
          cases (w.disk.makeFolders c.folder).1 with
          | error e => exact h.unedited
          | ok u =>
              refine (yields_writeFile (c.documentPath key) document w).bind
                fun r w₁ hdocument => ?_
              have h₁ : c.Lists w₁.disk i := h.of_read hdocument.index_of_document
              cases r with
              | error e => exact h₁.unedited
              | ok u =>
                  -- the index is read behind the write of the document, which left it alone
                  have hlook : c.index.Yields others w₁ fun j w' => j = i ∧ w' = w₁ := by
                    rw [Job.Yields, runWith_index]
                    exact ⟨h₁.indexOn_eq, rfl⟩
                  refine hlook.bind ?_
                  rintro j w' ⟨rfl, rfl⟩
                  refine (yields_writeFile c.indexPath _ w').mono fun r w₂ hindex => ?_
                  rcases lists_of_replaces h₁ (size_insert h.size hsize) hindex with hsame | hnew
                  · exact hsame.unedited
                  · exact ⟨_, hnew, .put⟩

theorem listsAfter_sweep (h : c.Lists w.disk i) :
    c.sweep.Yields others w fun _ w' => c.ListsAfter w.now .sweep i w' := by
  refine Job.Yields.mono (sweeps_sweep others c w) fun n w' hsweeps => ?_
  generalize hd' : w'.disk = d' at hsweeps
  cases hsweeps with
  | idle => exact ⟨i, hd' ▸ h, .none⟩
  | kept _ _ hremoves => exact ⟨i, hd' ▸ h.of_read hremoves.index, .none⟩
  | @cleared j gone d₁ _ r _ hload hremoves _ hsave =>
      obtain rfl : i = j := Option.some.inj (h.loadOn_eq.symm.trans hload)
      have h₁ : c.Lists d₁ i := h.of_read hremoves.index
      rcases lists_of_replaces h₁ (size_foldl_erase h.size gone) hsave with hsame | hnew
      · exact ⟨i, hd' ▸ hsame, .none⟩
      · exact ⟨_, hd' ▸ hnew, .sweep fun key hkey => hremoves.sublist.subset hkey⟩

theorem listsAfter_lookup {α : Type} {t : Job α} {a : α} {answer : α → CacheAnswer}
    (h : c.Lists w.disk i) (ht : t.runWith others w = (a, w)) :
    (answer <$> t).Yields others w fun _ w' => c.ListsAfter w.now call i w' := by
  rw [Job.Yields, Job.runWith_map, ht]
  exact h.unedited

/-- After a call an index is listed again, and the call is what it differs by. -/
theorem listsAfter_job (others : World.Others) (h : c.Lists w.disk i) (hcall : call.isMeasurable) :
    c.ListsAfter w.now call i ((c.job call).runWith others w).2 := by
  cases call with
  | put key name document =>
      rw [job, Job.runWith_map]
      exact listsAfter_put h (of_decide_eq_true hcall)
  | sweep =>
      rw [job, Job.runWith_map]
      exact listsAfter_sweep h
  | get key => exact listsAfter_lookup h (runWith_get others w c key)
  | isFresh key => exact listsAfter_lookup h (runWith_isFresh others w c key)
  | entry key => exact listsAfter_lookup h (runWith_entry others w c key)
  | entries => exact listsAfter_lookup h (runWith_entries c w)
  | size =>
      have hsize : c.size.runWith others w = ((c.listOn w.disk).length, w) := by
        rw [size, Job.runWith_bind, runWith_entries]
        rfl
      exact listsAfter_lookup h hsize
  | summary =>
      have hsummary : c.summary.runWith others w =
          (Summary.ofEntries w.now (c.listOn w.disk), w) := by
        rw [summary, Job.runWith_bind, runWith_entries]
        rfl
      exact listsAfter_lookup h hsummary

/-! ### One record -/

/-- The call is meant to replace this record of the key or to remove it. -/
def concerns (c : Cache) (key : String) (r : Record) : Stamp × CacheCall → Bool
  | (_, .put other _ _) => other == key
  | (now, .sweep) => !(c.toEntry key r).isFresh now
  | _ => false

namespace Edits

theorem keeps (h : c.Edits now call i i') (hr : i.find? key = some r)
    (hcall : c.concerns key r (now, call) = false) : i'.find? key = some r := by
  cases h with
  | none => exact hr
  | put =>
      rw [Table.find?_insert_of_ne _ _ (Ne.symm (beq_eq_false_iff_ne.1 hcall))]
      exact hr
  | @sweep gone _ hgone =>
      have hfresh : (c.toEntry key r).isFresh now := by simpa [concerns] using hcall
      have hkey : key ∉ gone := fun hmem => View.not_mem_staleKeys hr hfresh (hgone key hmem)
      rw [Table.find?_foldl_erase, if_neg hkey]
      exact hr

/-- A record that is listed was listed before, or this call has put it there. -/
theorem origin (h : c.Edits now call i i') (hr : i'.find? key = some r) :
    i.find? key = some r ∨
      ∃ name document, call = .put key name document ∧ r = ⟨name, now, document.length⟩ := by
  cases h with
  | none => exact .inl hr
  | @put other name document _ =>
      rcases Table.find?_insert_eq_some.1 hr with ⟨rfl, rfl⟩ | ⟨-, hr⟩
      · exact .inr ⟨name, document, rfl, rfl⟩
      · exact .inl hr
  | @sweep gone _ _ =>
      rw [Table.find?_foldl_erase] at hr
      split at hr
      · cases hr
      · exact .inl hr

end Edits

/-! ### A run -/

inductive EditsAll (c : Cache) : List (Stamp × CacheCall) → Index → Index → Prop where
  | nil {i : Index} : EditsAll c [] i i
  | cons {now : Stamp} {call : CacheCall} {calls : List (Stamp × CacheCall)} {i j i' : Index}
      (first : c.Edits now call i j) (rest : EditsAll c calls j i') :
      EditsAll c ((now, call) :: calls) i i'

theorem lists_serve (others : World.Others) (h : c.Lists w.disk i)
    (hcalls : ∀ call ∈ calls, call.2.isMeasurable) :
    ∃ i', c.Lists (c.serve others w calls).2.disk i' ∧ c.EditsAll calls i i' := by
  induction calls generalizing w i with
  | nil => exact ⟨i, h, .nil⟩
  | cons call calls ih =>
      obtain ⟨now, call⟩ := call
      obtain ⟨hcall, hmore⟩ := List.forall_mem_cons.1 hcalls
      obtain ⟨j, hj, hfirst⟩ := listsAfter_job (w := { w with now }) others h hcall
      obtain ⟨i', hi', hrest⟩ := ih hj hmore
      exact ⟨i', hi', .cons hfirst hrest⟩

namespace EditsAll

theorem keeps (h : c.EditsAll calls i i') (hr : i.find? key = some r)
    (hcalls : ∀ call ∈ calls, c.concerns key r call = false) : i'.find? key = some r := by
  induction h with
  | nil => exact hr
  | cons first _ ih =>
      obtain ⟨hcall, hmore⟩ := List.forall_mem_cons.1 hcalls
      exact ih (first.keeps hr hcall) hmore

theorem origin (h : c.EditsAll calls i i') (hr : i'.find? key = some r) :
    i.find? key = some r ∨ ∃ now name document, (now, .put key name document) ∈ calls ∧
      r = ⟨name, now, document.length⟩ := by
  induction h with
  | nil => exact .inl hr
  | @cons now call calls i j i' first _ ih =>
      rcases ih hr with hj | ⟨later, name, document, hmem, rfl⟩
      · rcases first.origin hj with hi | ⟨name, document, rfl, rfl⟩
        · exact .inl hi
        · exact .inr ⟨now, name, document, List.mem_cons_self, rfl⟩
      · exact .inr ⟨later, name, document, List.mem_cons_of_mem _ hmem, rfl⟩

end EditsAll

/-- An index is read back from its bytes as it is, and so it is from the disk once it is saved. In
any run from there on, whatever the disk refuses, an index can be read after each call; a record
that no call was meant for is in it as it was, and each record in it was there or is one that a
`put` of its key stored. -/
theorem index_persists (hi : ∀ e ∈ i.entries, e.2.size < bound64) :
    Index.read? i.write = some i ∧
    ∀ (c : Cache) (others : World.Others) (w : World), ((c.save i).runWith others w).1 = .ok () →
      let saved := ((c.save i).runWith others w).2
      (c.load.runWith others saved).1 = some i ∧
      ∀ calls : List (Stamp × CacheCall), (∀ call ∈ calls, call.2.isMeasurable) →
        ∃ i', (c.load.runWith others (c.serve others saved calls).2).1 = some i' ∧
          (∀ key r, i.find? key = some r → (∀ call ∈ calls, c.concerns key r call = false) →
            i'.find? key = some r) ∧
          ∀ key r, i'.find? key = some r → i.find? key = some r ∨
            ∃ now name document, (now, .put key name document) ∈ calls ∧
              r = ⟨name, now, document.length⟩ := by
  refine ⟨Index.read?_write hi, fun c others w hok => ?_⟩
  intro saved
  have hsaved : Replaces c.indexPath i.write w.disk (.ok ()) saved.disk := by
    rw [← hok]
    exact (yields_save c i w).1
  have hlists : c.Lists saved.disk i := lists_of_saved hi hsaved
  refine ⟨?_, fun calls hcalls => ?_⟩
  · rw [runWith_load]
    exact hlists.loadOn_eq
  · obtain ⟨i', hi', hedits⟩ := lists_serve others hlists hcalls
    refine ⟨i', ?_, fun key r hr hcalls => hedits.keeps hr hcalls, fun key r hr => hedits.origin hr⟩
    rw [runWith_load]
    exact hi'.loadOn_eq

/-- The end of the leap second of the first minute there is. -/
def oddStamp : Stamp :=
  ⟨firstDay, 59, 1999999999, by decide, by decide, by decide, by decide, by decide⟩

def oddIndex : Index := Table.empty.insert "\"\t\n𝄞" ⟨"\\u0000", oddStamp, bound64 - 1⟩

def folderWorld : World where
  disk := ⟨[(["cache".toList], .folder)]⟩
  now := default
  remote := scripted [] (.error .timeout)
  reading _ := .zero

theorem index_persists_odd :
    let c : Cache := { folder := "cache" }
    let run := (c.save oddIndex).runWith World.nobody folderWorld
    let calls : List (Stamp × CacheCall) :=
      [(oddStamp, .put "rune" "Rune" [60]), (oddStamp, .sweep)]
    (∀ e ∈ oddIndex.entries, e.2.size < bound64) ∧ run.1 = .ok () ∧
    (c.load.runWith World.nobody run.2).1 = some oddIndex ∧
      ∃ i', (c.load.runWith World.nobody (c.serve World.nobody run.2 calls).2).1 = some i' ∧
        i'.find? "\"\t\n𝄞" = some ⟨"\\u0000", oddStamp, bound64 - 1⟩ := by
  intro c run calls
  have hsize : ∀ e ∈ oddIndex.entries, e.2.size < bound64 := by decide
  have hsave : run.1.isOk = c.canSave folderWorld.disk := (yields_save c oddIndex folderWorld).2
  have hok : run.1 = .ok () := by
    cases hrun : run.1 with
    | ok u => rfl
    | error e =>
        rw [hrun, show c.canSave folderWorld.disk = true by decide] at hsave
        cases hsave
  obtain ⟨hload, hrun⟩ := (index_persists hsize).2 c World.nobody folderWorld hok
  obtain ⟨i', hi', hkeeps, -⟩ := hrun calls (by decide)
  exact ⟨hsize, hok, hload, i', hi', hkeeps _ _ rfl (by decide)⟩

end Cache

end StatAlmanac
