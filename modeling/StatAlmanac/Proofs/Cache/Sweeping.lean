import StatAlmanac.Proofs.Cache.Saving
import StatAlmanac.Proofs.Cache.View
import StatAlmanac.Proofs.Cache.Work

/-!
What a sweep does on any disk, whatever the disk refuses, and how it counts. It
counts the documents that are gone, and the entries go with the index, which is
rewritten last. So the count is that of the entries that go where the index can
be rewritten. Where it cannot, no entry goes, and each sweep counts the same
ones again.
-/

namespace StatAlmanac

namespace Cache

variable {c : Cache} {d d₁ d' : Disk} {now : Stamp} {key : String} {keys gone : List String}
  {i : Index} {n : Nat} {others : World.Others} {w : World}

/-! ### One sweep -/

/-- The documents of keys are removed one after the other. Those are gone that are removed now or
were missing, and the others cannot be removed. -/
inductive Removes (c : Cache) : Disk → List String → List String → Disk → Prop where
  | done (d : Disk) : Removes c d [] [] d
  | removed {d d₁ d' : Disk} {key : String} {keys gone : List String}
      (hremove : d.remove (c.documentPath key) = .ok d₁) (rest : Removes c d₁ keys gone d') :
      Removes c d (key :: keys) (key :: gone) d'
  | missing {d d' : Disk} {key : String} {keys gone : List String}
      (hmissing : d.remove (c.documentPath key) = .error .missing)
      (rest : Removes c d keys gone d') : Removes c d (key :: keys) (key :: gone) d'
  | stuck {d d' : Disk} {key : String} {keys gone : List String}
      (hstuck : d.remove (c.documentPath key) = .error .refused)
      (rest : Removes c d keys gone d') : Removes c d (key :: keys) gone d'

theorem removes_removeAll (c : Cache) (keys : List String) (i : Index) (n : Nat) (w : World) :
    (c.removeAll keys i n).Yields others w fun r w' =>
      ∃ gone, c.Removes w.disk keys gone w'.disk ∧
        r = (gone.foldl Table.erase i, n + gone.length) := by
  induction keys generalizing i n w with
  | nil => exact ⟨[], .done _, rfl⟩
  | cons key keys ih =>
      have hcount (gone : List String) : n + 1 + gone.length = n + (key :: gone).length := by
        rw [List.length_cons]
        omega
      refine .step (e := .remove (c.documentPath key)) ?_
      simp only [World.perform]
      cases hremove : w.disk.remove (c.documentPath key) with
      | ok d₁ =>
          refine (ih (i.erase key) (n + 1) { w with disk := d₁ }).mono ?_
          rintro r w' ⟨gone, hgone, rfl⟩
          exact ⟨key :: gone, .removed hremove hgone, by rw [hcount, List.foldl_cons]⟩
      | error e =>
          cases e with
          | missing =>
              refine (ih (i.erase key) (n + 1) w).mono ?_
              rintro r w' ⟨gone, hgone, rfl⟩
              exact ⟨key :: gone, .missing hremove hgone, by rw [hcount, List.foldl_cons]⟩
          | refused =>
              refine (ih i n w).mono ?_
              rintro r w' ⟨gone, hgone, rfl⟩
              exact ⟨gone, .stuck hremove hgone, rfl⟩

/-- How a sweep goes, and what it counts. -/
inductive Sweeps (c : Cache) (now : Stamp) (d : Disk) : Nat → Disk → Prop where
  | idle (hidle : c.isEnabled → c.loadOn d = none) : Sweeps c now d 0 d
  | kept {i : Index} {d' : Disk} (enabled : c.isEnabled) (hload : c.loadOn d = some i)
      (hremoves : c.Removes d (c.staleKeys now i) [] d') : Sweeps c now d 0 d'
  | cleared {i : Index} {gone : List String} {d₁ d' : Disk} {r : Except CacheError Unit}
      (enabled : c.isEnabled) (hload : c.loadOn d = some i)
      (hremoves : c.Removes d (c.staleKeys now i) gone d₁) (hgone : gone ≠ [])
      (hsave : Replaces c.indexPath (Index.write (gone.foldl Table.erase i)) d₁ r d')
      (hr : r.isOk = c.canSave d₁) : Sweeps c now d gone.length d'

theorem sweeps_sweep (others : World.Others) (c : Cache) (w : World) :
    c.sweep.Yields others w fun n w' => c.Sweeps w.now w.disk n w'.disk := by
  rw [sweep_eq]
  cases hc : c.isEnabled with
  | false => exact .idle (by simp [hc])
  | true =>
      have hlook : c.load.Yields others w fun r w' => r = c.loadOn w.disk ∧ w' = w := by
        rw [Job.Yields, runWith_load]
        exact ⟨rfl, rfl⟩
      refine .inside (hlook.bind ?_)
      rintro r w ⟨rfl, rfl⟩
      cases hload : c.loadOn w.disk with
      | none => exact .idle fun _ => hload
      | some i =>
          refine .step (e := .now) ((removes_removeAll c (c.staleKeys w.now i) i 0 w).bind ?_)
          rintro r w₁ ⟨gone, hgone, rfl⟩
          rw [Nat.zero_add]
          cases gone with
          | nil => exact .kept hc hload hgone
          | cons key gone =>
              have hcount : 0 < (key :: gone).length := Nat.succ_pos _
              simp only [hcount, if_true]
              refine (yields_save c _ w₁).bind ?_
              rintro r w' ⟨hsave, hok⟩
              exact .cleared hc hload hgone (List.cons_ne_nil _ _) hsave hok

/-! ### What changes -/

theorem staleKeys_sublist (c : Cache) (now : Stamp) (i : Index) :
    (c.staleKeys now i).Sublist i.names :=
  List.filter_sublist.map _

namespace Removes

theorem sublist (h : Removes c d keys gone d') : gone.Sublist keys := by
  induction h with
  | done => exact .slnil
  | removed _ _ ih | missing _ _ ih => exact ih.cons_cons _
  | stuck _ _ ih => exact ih.cons _

theorem eq_of_nil (h : Removes c d keys [] d') : d' = d := by
  generalize hgone : [] = gone at h
  induction h with
  | done => rfl
  | removed | missing => cases hgone
  | stuck _ _ ih => exact ih hgone

/-- At most the documents are other than before of which it is said that they are gone. -/
theorem differsAt (h : Removes c d keys gone d') :
    ∃ ps, Disk.DiffersAt ps d d' ∧
      ∀ q ∈ ps, ∃ key ∈ gone, d.resolve (c.documentPath key) = .ok q := by
  induction h with
  | done d => exact ⟨[], .refl d, List.forall_mem_nil _⟩
  | removed hremove _ ih =>
      obtain ⟨p, hp, hfirst⟩ := Disk.differsAt_remove hremove
      obtain ⟨ps, hrest, hplaces⟩ := ih
      refine ⟨[p] ++ ps, hfirst.trans hrest, fun q hq => ?_⟩
      rcases List.mem_append.1 hq with hq | hq
      · rw [List.mem_singleton.1 hq]
        exact ⟨_, List.mem_cons_self, hp⟩
      · obtain ⟨key, hkey, hresolve⟩ := hplaces q hq
        exact ⟨key, List.mem_cons_of_mem _ hkey, hfirst.resolve_iff.1 hresolve⟩
  | missing _ _ ih =>
      obtain ⟨ps, hrest, hplaces⟩ := ih
      refine ⟨ps, hrest, fun q hq => ?_⟩
      obtain ⟨key, hkey, hresolve⟩ := hplaces q hq
      exact ⟨key, List.mem_cons_of_mem _ hkey, hresolve⟩
  | stuck _ _ ih => exact ih

theorem index (h : Removes c d keys gone d') :
    (d'.read c.indexPath).toOption = (d.read c.indexPath).toOption := by
  obtain ⟨ps, hdiffers, hplaces⟩ := h.differsAt
  refine hdiffers.toOption_read fun q hq hindex => ?_
  obtain ⟨key, -, hdocument⟩ := hplaces q hq
  have hletter := lastLetter?_index hindex
  rw [lastLetter?_document hdocument] at hletter
  exact absurd hletter (by decide)

end Removes

/-- An index reads as written that has entries of one that was read. -/
theorem loadOn_of_saved (hload : c.loadOn d = some i)
    (hsave : Replaces c.indexPath (Index.write (gone.foldl Table.erase i)) d₁ (.ok ()) d') :
    c.loadOn d' = some (gone.foldl Table.erase i) := by
  have hindex : c.indexOn d = i := by rw [indexOn, hload, Option.getD_some]
  have hsize : ∀ e ∈ (gone.foldl Table.erase i).entries, e.2.size < bound64 := by
    rw [Table.foldl_erase_entries]
    intro e he
    exact c.size_indexOn d e (hindex ▸ List.mem_of_mem_filter he)
  rw [loadOn, hsave.read_eq]
  exact Index.read?_write hsize

namespace Sweeps

theorem differsAt (h : Sweeps c now d n d') : ∃ ps, Disk.DiffersAt ps d d' := by
  cases h with
  | idle => exact ⟨[], .refl d⟩
  | kept _ _ hremoves =>
      obtain ⟨ps, hdiffers, -⟩ := hremoves.differsAt
      exact ⟨ps, hdiffers⟩
  | cleared _ _ hremoves _ hsave =>
      obtain ⟨ps, hdocuments, -⟩ := hremoves.differsAt
      obtain ⟨qs, hindex, -⟩ := hsave.differsAt
      exact ⟨ps ++ qs, hdocuments.trans hindex⟩

theorem canSave (h : Sweeps c now d n d') : c.canSave d' = c.canSave d := by
  obtain ⟨ps, hdiffers⟩ := h.differsAt
  exact canSave_of_differsAt hdiffers

theorem index (h : Sweeps c now d n d') :
    if c.canSave d then (c.indexOn d').size + n = (c.indexOn d).size
    else c.indexOn d' = c.indexOn d := by
  cases h with
  | idle => simp
  | kept _ _ hremoves => simp [hremoves.eq_of_nil]
  | @cleared i gone d₁ _ r _ hload hremoves _ hsave hr =>
      obtain ⟨ps, hdiffers, -⟩ := hremoves.differsAt
      rw [canSave_of_differsAt hdiffers] at hr
      rw [← hr]
      have hbefore : c.indexOn d = i := by rw [indexOn, hload, Option.getD_some]
      cases r with
      | ok u =>
          have hafter : c.indexOn d' = gone.foldl Table.erase i := by
            rw [indexOn, loadOn_of_saved hload hsave, Option.getD_some]
          have hnames := hremoves.sublist.trans (c.staleKeys_sublist now i)
          have hok : (Except.ok u : Except CacheError Unit).isOk := rfl
          rw [if_pos hok, hafter, hbefore]
          exact Table.size_foldl_erase (i.nodup_names.sublist hnames) hnames.subset
      | error e =>
          rw [if_neg (by simp [Except.isOk, Except.toBool]), indexOn_eq, indexOn_eq,
            hsave.index_of_error, hremoves.index]

end Sweeps

/-! ### Counting -/

def listOn (c : Cache) (d : Disk) : List Entry :=
  if c.isEnabled then (c.indexOn d).entries.map fun e => c.toEntry e.1 e.2 else []

theorem runWith_entries (c : Cache) (w : World) :
    c.entries.runWith others w = (c.listOn w.disk, w) := by
  rw [entries, listOn]
  cases c.isEnabled with
  | false => rfl
  | true =>
      simp only [Bool.not_true, Bool.false_eq_true, if_false, if_true]
      rw [Job.runWith_bind, runWith_index]
      rfl

theorem Sweeps.list (h : Sweeps c now d n d') :
    if c.canSave d then (c.listOn d').length + n = (c.listOn d).length
    else c.listOn d' = c.listOn d := by
  cases hc : c.isEnabled with
  | true =>
      have hindex := h.index
      simp only [listOn, hc, if_true, List.length_map]
      split
      · rename_i hsave
        rwa [if_pos hsave] at hindex
      · rename_i hsave
        rw [if_neg hsave] at hindex
        rw [hindex]
  | false =>
      cases h with
      | idle => simp
      | kept enabled => simp [hc] at enabled
      | cleared enabled => simp [hc] at enabled

/-- Sweeps one after the other, each at a time of its own, and what each of them counts. -/
def sweeps (others : World.Others) (c : Cache) : World → List Stamp → List Nat × World
  | w, [] => ([], w)
  | w, now :: later =>
      let swept := c.sweep.runWith others { w with now }
      let more := sweeps others c swept.2 later
      (swept.1 :: more.1, more.2)

theorem list_sweeps (others : World.Others) (c : Cache) (w : World) (times : List Stamp) :
    if c.canSave w.disk then
      (c.listOn (c.sweeps others w times).2.disk).length + (c.sweeps others w times).1.sum =
        (c.listOn w.disk).length
    else c.listOn (c.sweeps others w times).2.disk = c.listOn w.disk := by
  induction times generalizing w with
  | nil => simp [sweeps]
  | cons now later ih =>
      have hswept : c.Sweeps now w.disk _ _ := sweeps_sweep others c { w with now }
      have hfirst := hswept.list
      have hrest := ih (c.sweep.runWith others { w with now }).2
      rw [hswept.canSave] at hrest
      simp only [sweeps, List.sum_cons]
      split
      · rename_i hsave
        rw [if_pos hsave] at hfirst hrest
        omega
      · rename_i hsave
        rw [if_neg hsave] at hfirst hrest
        exact hrest.trans hfirst

/-- On any disk, whatever is listed and at whatever times, the sweeps of a run count together the
entries that are listed before and no longer after, if and only if the index can be rewritten or
they count none. Where the index cannot be rewritten, the entries are after each sweep as before. -/
theorem sweeps_count_iff (others : World.Others) (c : Cache) (w : World) (times : List Stamp) :
    let run := c.sweeps others w times
    let before := (c.entries.runWith others w).1
    let after := (c.entries.runWith others run.2).1
    (after.length + run.1.sum = before.length ↔ c.canSave w.disk ∨ ∀ n ∈ run.1, n = 0) ∧
      (c.canSave w.disk = false → after = before) := by
  intro run before after
  have hlist := list_sweeps others c w times
  simp only [before, after, run, runWith_entries]
  cases hsave : c.canSave w.disk with
  | true =>
      rw [hsave, if_pos rfl] at hlist
      simp [hlist]
  | false =>
      rw [hsave, if_neg Bool.false_ne_true] at hlist
      simp [hlist, List.sum_eq_zero_iff_forall_eq_nat]

/-- Where a folder stands beside the index, the same entry is counted by each sweep and
never goes. -/
theorem sweeps_count_again :
    let c : Cache := { folder := "cache" }
    let tomorrow : Stamp := ⟨1, 0, 0, by decide, by decide, by decide, by decide, by decide⟩
    let run := c.sweeps World.nobody c.blockedWorld [tomorrow, tomorrow]
    run.1 = [1, 1] ∧ (c.entries.runWith World.nobody c.blockedWorld).1.length = 1 ∧
      (c.entries.runWith World.nobody run.2).1.length = 1 := by
  decide +kernel

end Cache

end StatAlmanac
