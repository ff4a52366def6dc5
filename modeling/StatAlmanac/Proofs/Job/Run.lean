import StatAlmanac.Proofs.Job.Play

/-!
Runs of jobs, piece by piece. `t.Ensures others w Q` says of a run that if the
disk does what the job asks of it, the result and the world after the run
satisfy `Q`. The rules follow the steps of a job, so that each job needs one
such statement and whoever uses the job need not look inside it.
-/

namespace StatAlmanac

/-- The disk does what it is asked. That a file is not there is an answer to who reads or removes
it. -/
def Effect.isGranted : (e : Effect) → e.Reply → Bool
  | .read _, .error .refused | .remove _, .error .refused => false
  | .write _ _, .error _ | .rename _ _, .error _ | .makeFolders _, .error _ => false
  | _, _ => true

@[simp] theorem Effect.isGranted_write (path : String) (content : Bytes)
    (reply : Except DiskFault Unit) : Effect.isGranted (.write path content) reply =
      reply.isOk := by
  cases reply <;> rfl

@[simp] theorem Effect.isGranted_rename (source target : String) (reply : Except DiskFault Unit) :
    Effect.isGranted (.rename source target) reply = reply.isOk := by
  cases reply <;> rfl

namespace Job

variable {α β : Type} {others : World.Others} {w : World}

theorem runWith_bind (t : Job α) (f : α → Job β) (w : World) :
    (t >>= f).runWith others w =
      (f (t.runWith others w).1).runWith others (t.runWith others w).2 := by
  induction t generalizing w with
  | done a => rfl
  | step e next ih => exact ih _ _

theorem runWith_map (t : Job α) (f : α → β) :
    (f <$> t).runWith others w = (f (t.runWith others w).1, (t.runWith others w).2) := by
  rw [map_eq_pure_bind, runWith_bind]
  rfl

theorem runWith_now (others : World.Others) (w : World) :
    Job.now.runWith others w = (w.now, w) := rfl

theorem runWith_inside (gate : Gate) (t : Job α) :
    (inside gate t).runWith others w = t.runWith others w := by
  have henter : (enter gate).runWith others w = ((), w) := rfl
  rw [inside, runWith_bind, henter, runWith_bind]
  rfl

def effects (others : World.Others) (w : World) : Job α → List Effect
  | .done _ => []
  | .step e next => e :: effects others (w.perform others e).2 (next (w.perform others e).1)

theorem effects_bind (t : Job α) (f : α → Job β) (w : World) :
    (t >>= f).effects others w =
      t.effects others w ++ (f (t.runWith others w).1).effects others (t.runWith others w).2 := by
  induction t generalizing w with
  | done a => rfl
  | step e next ih => exact congrArg (e :: ·) (ih _ _)

theorem forall_effects_of_only {P : Effect → Prop} {t : Job α} (h : t.Only P) :
    ∀ e ∈ t.effects others w, P e := by
  induction t generalizing w with
  | done a => exact List.forall_mem_nil _
  | step e next ih => exact List.forall_mem_cons.2 ⟨h.1, ih _ (h.2 _)⟩

/-- The result and the world after a run satisfy `Q`, whatever the disk refuses. -/
def Yields (others : World.Others) (w : World) (t : Job α) (Q : α → World → Prop) : Prop :=
  Q (t.runWith others w).1 (t.runWith others w).2

theorem Yields.bind {Q : α → World → Prop} {S : β → World → Prop} {t : Job α} {f : α → Job β}
    (ht : t.Yields others w Q) (hf : ∀ a w', Q a w' → (f a).Yields others w' S) :
    (t >>= f).Yields others w S := by
  rw [Yields, runWith_bind]
  exact hf _ _ ht

theorem Yields.mono {Q R : α → World → Prop} {t : Job α} (ht : t.Yields others w Q)
    (h : ∀ a w', Q a w' → R a w') : t.Yields others w R :=
  h _ _ ht

theorem Yields.step {Q : α → World → Prop} {e : Effect} {next : e.Reply → Job α}
    (h : (next (w.perform others e).1).Yields others (w.perform others e).2 Q) :
    (Job.step e next).Yields others w Q := h

theorem Yields.inside {Q : α → World → Prop} {gate : Gate} {t : Job α} (h : t.Yields others w Q) :
    (Job.inside gate t).Yields others w Q := by
  rw [Yields, runWith_inside]
  exact h

def isSmooth (others : World.Others) (w : World) : Job α → Bool
  | .done _ => true
  | .step e next =>
      e.isGranted (w.perform others e).1 &&
        isSmooth others (w.perform others e).2 (next (w.perform others e).1)

theorem isSmooth_bind (t : Job α) (f : α → Job β) (w : World) :
    (t >>= f).isSmooth others w =
      (t.isSmooth others w &&
        (f (t.runWith others w).1).isSmooth others (t.runWith others w).2) := by
  induction t generalizing w with
  | done a => rfl
  | step e next ih =>
      rw [isSmooth, Bool.and_assoc]
      exact congrArg _ (ih _ _)

theorem isSmooth_of_only {P : Effect → Prop} (hP : ∀ e r, P e → e.isGranted r) {t : Job α}
    (h : t.Only P) (w : World) : t.isSmooth others w := by
  induction t generalizing w with
  | done a => rfl
  | step e next ih => exact Bool.and_eq_true_iff.2 ⟨hP e _ h.1, ih _ (h.2 _) _⟩

def Ensures (others : World.Others) (w : World) (t : Job α) (Q : α → World → Prop) : Prop :=
  t.isSmooth others w → Q (t.runWith others w).1 (t.runWith others w).2

namespace Ensures

variable {Q R : α → World → Prop} {S : β → World → Prop}

theorem pure {a : α} (h : Q a w) : (Pure.pure a : Job α).Ensures others w Q := fun _ => h

theorem bind {t : Job α} {f : α → Job β} (ht : t.Ensures others w Q)
    (hf : ∀ a w', Q a w' → (f a).Ensures others w' S) : (t >>= f).Ensures others w S := by
  intro hsmooth
  rw [isSmooth_bind, Bool.and_eq_true] at hsmooth
  obtain ⟨hs, hfs⟩ := hsmooth
  rw [runWith_bind]
  exact hf _ _ (ht hs) hfs

theorem mono {t : Job α} (ht : t.Ensures others w Q) (h : ∀ a w', Q a w' → R a w') :
    t.Ensures others w R :=
  fun hsmooth => h _ _ (ht hsmooth)

theorem map {t : Job α} {f : α → β} (ht : t.Ensures others w fun a w' => S (f a) w') :
    (f <$> t).Ensures others w S := by
  rw [map_eq_pure_bind]
  exact ht.bind fun _ _ h => pure h

/-! ### The effects -/

theorem step {e : Effect} {next : e.Reply → Job α}
    (h : e.isGranted (w.perform others e).1 →
      (next (w.perform others e).1).Ensures others (w.perform others e).2 Q) :
    (Job.step e next).Ensures others w Q := by
  intro hsmooth
  rw [isSmooth, Bool.and_eq_true] at hsmooth
  exact h hsmooth.1 hsmooth.2

theorem read {path : String} {f : Except DiskFault Bytes → Job α}
    (h : w.disk.read path ≠ .error .refused → (f (w.disk.read path)).Ensures others w Q) :
    (Job.read path >>= f).Ensures others w Q := by
  refine step (e := .read path) fun hgranted => h fun hrefused => ?_
  have hread : Effect.isGranted (.read path) (w.disk.read path) = true := hgranted
  rw [hrefused] at hread
  cases hread

theorem changed {attempt : Except DiskFault Disk} {f : Except DiskFault Unit → Job α}
    (hgranted : (w.change attempt).1.isOk)
    (h : ∀ d, attempt = .ok d → (f (.ok ())).Ensures others { w with disk := d } Q) :
    (f (w.change attempt).1).Ensures others (w.change attempt).2 Q := by
  cases attempt with
  | error e => cases hgranted
  | ok d => exact h d rfl

theorem write {path : String} {content : Bytes} {f : Except DiskFault Unit → Job α}
    (h : ∀ d, w.disk.write path content = .ok d →
      (f (.ok ())).Ensures others { w with disk := d } Q) :
    (Job.write path content >>= f).Ensures others w Q := by
  refine step (e := .write path content) fun hgranted => changed ?_ h
  rwa [← Effect.isGranted_write path content]

theorem rename {source target : String} {f : Except DiskFault Unit → Job α}
    (h : ∀ d, w.disk.rename source target = .ok d →
      (f (.ok ())).Ensures others { w with disk := d } Q) :
    (Job.rename source target >>= f).Ensures others w Q := by
  refine step (e := .rename source target) fun hgranted => changed ?_ h
  rwa [← Effect.isGranted_rename source target]

theorem remove {path : String} {f : Except DiskFault Unit → Job α}
    (hdone : ∀ d, w.disk.remove path = .ok d →
      (f (.ok ())).Ensures others { w with disk := d } Q)
    (hmissing : w.disk.remove path = .error .missing →
      (f (.error .missing)).Ensures others w Q) :
    (Job.remove path >>= f).Ensures others w Q := by
  refine step (e := .remove path) fun hgranted => ?_
  simp only [World.perform] at hgranted ⊢
  cases hremove : w.disk.remove path with
  | ok d => exact hdone d hremove
  | error e =>
      cases e with
      | missing => exact hmissing hremove
      | refused =>
          rw [hremove] at hgranted
          cases hgranted

theorem makeFolders {path : String} {f : Except DiskFault Unit → Job α}
    (h : (w.disk.makeFolders path).1 = .ok () →
      (f (.ok ())).Ensures others { w with disk := (w.disk.makeFolders path).2 } Q) :
    (Job.makeFolders path >>= f).Ensures others w Q := by
  refine step (e := .makeFolders path) fun hgranted => ?_
  simp only [World.perform, World.makeFolders] at hgranted ⊢
  cases hmake : (w.disk.makeFolders path).1 with
  | error e =>
      rw [hmake] at hgranted
      cases hgranted
  | ok u => exact h hmake

theorem now {f : Stamp → Job α} (h : (f w.now).Ensures others w Q) :
    (Job.now >>= f).Ensures others w Q :=
  step (e := .now) fun _ => h

theorem count {event : Event} {f : Unit → Job α}
    (h : (f ()).Ensures others { w with metrics := w.metrics.add event } Q) :
    (Job.count event >>= f).Ensures others w Q :=
  step (e := .count event) fun _ => h

theorem inside {gate : Gate} {t : Job α} (h : t.Ensures others w Q) :
    (Job.inside gate t).Ensures others w Q := by
  refine step (e := .enter gate) fun _ => h.bind fun a w' hQ => ?_
  exact step (e := .leave gate) fun _ => pure hQ

theorem aside {t : Job α} (h : t.Ensures others w fun a w' => Q a (w'.giveWay others)) :
    (Job.aside t).Ensures others w Q :=
  h.bind fun _ _ hQ => step (e := .giveWay) fun _ => pure hQ

end Ensures

end Job

end StatAlmanac
