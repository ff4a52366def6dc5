import StatAlmanac.Proofs.Cache.Callers

/-!
Which effects the jobs of a cache have at all: work on files, looks at the time of
day, and the gate of the index. Lookups only look.
-/

namespace StatAlmanac

def Effect.isCacheWork : Effect → Bool
  | .enter .index | .leave .index => true
  | e => e.isFileWork

theorem World.change_eq (w : World) (attempt : Except DiskFault Disk) :
    (w.change attempt).2 = { w with disk := (w.change attempt).2.disk } := by
  cases attempt with
  | error e => rfl
  | ok d => rfl

namespace Cache

variable (c : Cache) (key name : String)

/-! ### Lookups -/

theorem only_load : c.load.Only fun e => e.isLook := by
  refine Job.only_bind (Job.only_act rfl) fun r => ?_
  split
  · trivial
  · trivial
  · trivial

theorem only_index : c.index.Only fun e => e.isLook := Job.only_bind c.only_load fun _ => trivial

theorem only_entry : (c.entry key).Only fun e => e.isLook := by
  rw [entry]
  split
  · trivial
  · exact Job.only_bind c.only_index fun _ => trivial

theorem only_entries : c.entries.Only fun e => e.isLook := by
  rw [entries]
  split
  · trivial
  · exact Job.only_bind c.only_index fun _ => trivial

theorem only_summary : c.summary.Only fun e => e.isLook :=
  Job.only_bind c.only_entries fun _ => Job.only_bind (Job.only_act rfl) fun _ => trivial

theorem only_get : (c.get key).Only fun e => e.isLook := by
  refine Job.only_bind (c.only_entry key) fun r => ?_
  split
  · trivial
  · refine Job.only_bind (Job.only_act rfl) fun now => ?_
    split
    · exact Job.only_bind (Job.only_act rfl) fun _ => trivial
    · trivial

/-! ### Changes -/

theorem isCacheWork_of_isLook {e : Effect} (h : e.isLook) : e.isCacheWork := by
  cases e with
  | read | now => rfl
  | _ => cases h

theorem only_writeFile (path : String) (content : Bytes) :
    (writeFile path content).Only fun e => e.isCacheWork := by
  refine Job.only_bind (Job.only_act rfl) fun r => ?_
  split
  · trivial
  · refine Job.only_bind (Job.only_act rfl) fun r => ?_
    split
    · trivial
    · trivial

theorem only_put (document : Bytes) :
    (c.put key name document).Only fun e => e.isCacheWork := by
  rw [put_eq]
  refine Job.only_bind (Job.only_act rfl) fun now => ?_
  split
  · trivial
  · split
    · trivial
    · refine Job.only_inside rfl rfl (Job.only_bind (Job.only_act rfl) fun r => ?_)
      split
      · trivial
      · refine Job.only_bind (only_writeFile _ document) fun r => ?_
        split
        · trivial
        · have hindex := Job.only_mono c.only_index fun _ => isCacheWork_of_isLook
          exact Job.only_bind hindex fun _ => only_writeFile _ _

theorem only_removeAll (keys : List String) (i : Index) (n : Nat) :
    (c.removeAll keys i n).Only fun e => e.isCacheWork := by
  induction keys generalizing i n with
  | nil => trivial
  | cons key keys ih =>
      rw [removeAll]
      refine Job.only_bind (Job.only_act rfl) fun r => ?_
      split
      · exact ih _ _
      · exact ih _ _
      · exact ih _ _

theorem only_sweep : c.sweep.Only fun e => e.isCacheWork := by
  rw [sweep_eq]
  split
  · trivial
  · have hload := Job.only_mono c.only_load fun _ => isCacheWork_of_isLook
    refine Job.only_inside rfl rfl (Job.only_bind hload fun r => ?_)
    split
    · trivial
    · refine Job.only_bind (Job.only_act rfl) fun now => ?_
      refine Job.only_bind (c.only_removeAll _ _ _) ?_
      rintro ⟨swept, removed⟩
      by_cases hremoved : 0 < removed
      · simp only [hremoved, if_true]
        exact Job.only_bind (only_writeFile _ _) fun _ => trivial
      · simp only [hremoved, if_false]
        trivial

/-! ### The rest of the world -/

theorem runWith_of_cacheWork {α : Type} {others : World.Others} {t : Job α}
    (h : t.Only fun e => e.isCacheWork) (w : World) :
    (t.runWith others w).2 = { w with disk := (t.runWith others w).2.disk } := by
  induction t generalizing w with
  | done a => rfl
  | step e next ih =>
      have hperform : (w.perform others e).2 = { w with disk := (w.perform others e).2.disk } := by
        cases e with
        | write path content => exact w.change_eq _
        | rename source target => exact w.change_eq _
        | remove path => exact w.change_eq _
        | read | makeFolders | enter | leave | now => rfl
        | _ => cases h.1
      have hrest := ih _ (h.2 (w.perform others e).1) (w.perform others e).2
      rw [Job.runWith]
      generalize (next (w.perform others e).1).runWith others (w.perform others e).2 =
        run at hrest ⊢
      exact hrest.trans (congrArg (fun v : World => { v with disk := run.2.disk }) hperform)

end Cache

end StatAlmanac
