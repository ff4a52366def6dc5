import StatAlmanac.Proofs.Cache.Callers
import StatAlmanac.Proofs.Job.Throng

/-!
Calls of one cache at the same time. Readers take no gate and look twice, at the
index and then at a document, while any number of other calls come and go. The
invariant says who is in the gate and what shows: while nobody is there, every
record has its document, the one put last; in between, every record that stays
fresh to the end of the run still has a document of its key.
-/

namespace StatAlmanac

/-- The document of the `put` of a key that was the last to leave the gate. -/
def lastPut (key : String) (deeds : List (Deed CacheCall)) : Option Bytes :=
  deeds.findSome? fun deed =>
    match deed.call, deed.effect with
    | .put other _ document, .leave .index => if other = key then some document else none
    | _, _ => none

def CacheCall.Hands (handed : String → Bytes → Prop) (q : CacheCall) : Prop :=
  ∀ key name document, q = .put key name document → handed key document

namespace Cache

variable {c : Cache} {handed : String → Bytes → Prop} {stop : Stamp} {v v' : View}
  {q : CacheCall} {deeds : List (Deed CacheCall)} {key : String} {r : Record}
  {s : Throng CacheCall CacheAnswer} {n : Nat} {t : Job CacheAnswer} {e : Effect}
  {next : e.Reply → Job CacheAnswer}

theorem lastPut_of_ne (h : e ≠ .leave .index) :
    lastPut key (⟨n, q, e⟩ :: deeds) = lastPut key deeds := by
  rw [lastPut, List.findSome?_cons]
  cases q with
  | put other name document =>
      split
      · rename_i hdeed
        split at hdeed
        · rename_i heq
          exact absurd heq h
        · cases hdeed
      · rfl
  | _ => rfl

@[simp] theorem lastPut_put {other name : String} {document : Bytes} :
    lastPut key (⟨n, .put other name document, .leave .index⟩ :: deeds) =
      if other = key then some document else lastPut key deeds := by
  by_cases h : other = key <;> simp [lastPut, h]

@[simp] theorem lastPut_sweep :
    lastPut key (⟨n, .sweep, e⟩ :: deeds) = lastPut key deeds := rfl

/-! ### What shows -/

/-- What holds of a view at any time: its documents were handed over, and every record that will be
fresh at the time `stop` has a document. -/
structure Offers (c : Cache) (handed : String → Bytes → Prop) (stop : Stamp) (v : View) :
    Prop where
  handed : ∀ key document, v.documents key = some document → handed key document
  isKey : ∀ key r, v.index.find? key = some r → isKey key
  notLeap : ∀ key r, v.index.find? key = some r → r.storedAt.isLeap = false
  isStored : ∀ key r, v.index.find? key = some r → (c.toEntry key r).isFresh stop →
    (v.documents key).isSome

/-- What holds of a view while nobody is in the gate: every record has the document put last. -/
def Settled (deeds : List (Deed CacheCall)) (v : View) : Prop :=
  ∀ key r, v.index.find? key = some r →
    ∃ document, v.documents key = some document ∧ document.length = r.size ∧
      lastPut key deeds = some document

theorem isFresh_of_reaches {now : Stamp} (hnow : now.Reaches stop)
    (hleap : r.storedAt.isLeap = false) (hfresh : (c.toEntry key r).isFresh stop) :
    (c.toEntry key r).isFresh now := by
  rw [Entry.isFresh_iff] at hfresh ⊢
  exact lt_of_le_of_lt (hnow.since_le hleap) hfresh

theorem offers_empty : c.Offers handed stop .empty := by
  constructor
  · rintro key document ⟨⟩
  · rintro key r ⟨⟩
  · rintro key r ⟨⟩
  · rintro key r ⟨⟩

namespace Offers

theorem isStored_clear (h : c.Offers handed stop v) {now : Stamp} {gone : List String}
    (hnow : now.Reaches stop) (hgone : gone ⊆ c.staleKeys now v.index)
    (hr : v.index.find? key = some r) (hfresh : (c.toEntry key r).isFresh stop) :
    ((v.clear gone).documents key).isSome := by
  have hkept : key ∉ gone := fun hmem =>
    View.not_mem_staleKeys hr (isFresh_of_reaches hnow (h.notLeap key r hr) hfresh) (hgone hmem)
  rw [View.documents_clear, if_neg hkept]
  exact h.isStored key r hr hfresh

theorem partway (h : c.Offers handed stop v) (hq : q.Hands handed)
    (hv : c.Partway (·.Reaches stop) q v v') : c.Offers handed stop v' := by
  cases hv with
  | start => exact h
  | @store key name document =>
      refine ⟨fun other x hx => ?_, h.isKey, h.notLeap, fun other r hr hfresh => ?_⟩
      · rw [View.documents_store] at hx
        split at hx
        · rename_i heq
          rw [heq, ← Option.some.inj hx]
          exact hq key name document rfl
        · exact h.handed other x hx
      · rw [View.documents_store]
        split
        · rfl
        · exact h.isStored other r hr hfresh
  | clear _ hnow hgone =>
      refine ⟨fun other x hx => ?_, h.isKey, h.notLeap, fun other r hr hfresh => ?_⟩
      · rw [View.documents_clear, Option.ite_none_left_eq_some] at hx
        exact h.handed other x hx.2
      · exact h.isStored_clear hnow hgone hr hfresh

theorem changes (h : c.Offers handed stop v) (hq : q.Hands handed)
    (hv : c.Changes (·.Reaches stop) q v v') : c.Offers handed stop v' := by
  cases hv with
  | @put key name document now _ hkey hnow =>
      have hstored := h.partway hq (.store v)
      refine ⟨hstored.handed, fun other r hr => ?_, fun other r hr => ?_,
        fun other r hr hfresh => ?_⟩
      · rcases Table.find?_insert_eq_some.1 hr with ⟨rfl, -⟩ | ⟨-, hr⟩
        · exact hkey
        · exact h.isKey other r hr
      · rcases Table.find?_insert_eq_some.1 hr with ⟨-, rfl⟩ | ⟨-, hr⟩
        · exact hnow.start
        · exact h.notLeap other r hr
      · rcases Table.find?_insert_eq_some.1 hr with ⟨rfl, -⟩ | ⟨-, hr⟩
        · rw [View.documents_put, if_pos rfl]
          rfl
        · exact hstored.isStored other r hr hfresh
  | @sweep now _ hnow =>
      have hcleared := h.partway hq (.clear v hnow (List.Subset.refl _))
      have hkept (other : String) (r : Record)
          (hr : (v.sweep c now).index.find? other = some r) : v.index.find? other = some r := by
        rw [View.find?_index_sweep, Option.filter_eq_some_iff] at hr
        exact hr.1
      exact ⟨hcleared.handed, fun other r hr => h.isKey other r (hkept other r hr),
        fun other r hr => h.notLeap other r (hkept other r hr),
        fun other r hr => hcleared.isStored other r (hkept other r hr)⟩
  | leave => exact h

/-- A record that is fresh in the end stays, or another one takes its place. -/
theorem keeps_record (h : c.Offers handed stop v) (hv : c.Changes (·.Reaches stop) q v v')
    (hr : v.index.find? key = some r) (hfresh : (c.toEntry key r).isFresh stop) :
    ∃ r', v'.index.find? key = some r' := by
  cases hv with
  | put =>
      rw [View.find?_index_put]
      split
      · exact ⟨_, rfl⟩
      · exact ⟨r, hr⟩
  | sweep _ hnow =>
      refine ⟨r, ?_⟩
      rw [View.find?_index_sweep, Option.filter_eq_some_iff]
      exact ⟨hr, isFresh_of_reaches hnow (h.notLeap key r hr) hfresh⟩
  | leave => exact ⟨r, hr⟩

end Offers

theorem Settled.congr (h : Settled deeds v) (he : e ≠ .leave .index) :
    Settled (⟨n, q, e⟩ :: deeds) v := by
  intro key r hr
  rw [lastPut_of_ne he]
  exact h key r hr

theorem Settled.changes (h : Settled deeds v) (hv : c.Changes (·.Reaches stop) q v v') :
    Settled (⟨n, q, .leave .index⟩ :: deeds) v' := by
  intro other r hr
  cases hv with
  | @put key name document now _ hkey hnow =>
      rw [View.documents_put, lastPut_put]
      rcases Table.find?_insert_eq_some.1 hr with ⟨rfl, rfl⟩ | ⟨hne, hr⟩
      · simp
      · rw [if_neg hne, if_neg (Ne.symm hne)]
        exact h other r hr
  | @sweep now _ hnow =>
      rw [View.find?_index_sweep, Option.filter_eq_some_iff] at hr
      have hkept := View.not_mem_staleKeys hr.1 hr.2
      have hdocuments : (v.sweep c now).documents other = v.documents other := if_neg hkept
      rw [hdocuments, lastPut_sweep]
      exact h other r hr.1
  | leave => exact h other r hr

/-! ### The invariant -/

abbrev KeepsTo (c : Cache) (handed : String → Bytes → Prop) (stop : Stamp) (q : CacheCall)
    (t : Job CacheAnswer) (s : Stand) : Prop :=
  t.Abides (c.among (·.Reaches stop) (fun d => c.Offers handed stop (c.view d)) q) s
    (c.Ends (·.Reaches stop) (fun d => c.Offers handed stop (c.view d)) q)

def IsOut (c : Cache) (handed : String → Bytes → Prop) (stop : Stamp)
    (call : CacheCall × Job CacheAnswer) : Prop :=
  c.KeepsTo handed stop call.1 call.2 .outside ∨ c.KeepsTo handed stop call.1 call.2 .past

/-- One call at most is in the gate, and only there is anything unsettled. -/
inductive Guarded (c : Cache) (handed : String → Bytes → Prop) (stop : Stamp)
    (s : Throng CacheCall CacheAnswer) : Prop where
  | free : s.taken = [] → c.Placed s.world.disk → c.Offers handed stop (c.view s.world.disk) →
      Settled s.deeds (c.view s.world.disk) →
      (∀ (n : Nat) call, s.calls[n]? = some call → c.IsOut handed stop call) →
        Guarded c handed stop s
  | held (n : Nat) (q : CacheCall) (t : Job CacheAnswer) (v : View) : s.taken = [.index] →
      s.calls[n]? = some (q, t) → q.isChange → c.Offers handed stop v → Settled s.deeds v →
      c.KeepsTo handed stop q t (.inside v s.world.disk) →
      (∀ (m : Nat) call, m ≠ n → s.calls[m]? = some call → c.IsOut handed stop call) →
      Guarded c handed stop s

theorem perform_look {w : World} (he : e.isLook) : (w.perform World.nobody e).2 = w := by
  cases e with
  | read path => rfl
  | now => rfl
  | _ => cases he

theorem ne_leave_of_isLook (he : e.isLook) : e ≠ .leave .index := by
  rintro rfl
  cases he

theorem hold_of_isLook (he : e.isLook) (taken : List Gate) : e.hold taken = taken := by
  cases e with
  | read path => rfl
  | now => rfl
  | _ => cases he

theorem ne_leave_of_isFileWork (he : e.isFileWork) : e ≠ .leave .index := by
  rintro rfl
  cases he

theorem hold_of_isFileWork (he : e.isFileWork) (taken : List Gate) : e.hold taken = taken := by
  cases e with
  | read | write | rename | remove | makeFolders | now => rfl
  | _ => cases he

/-- Inside the gate a call is not done: it works on files, or it leaves. -/
theorem KeepsTo.inside_cases {d : Disk} (h : c.KeepsTo handed stop q t (.inside v d)) :
    (∃ e next, t = .step e next ∧ e.isFileWork ∧ c.Partway (·.Reaches stop) q v (c.view d)) ∨
      (∃ next, t = .step (.leave .index) next ∧ c.Changes (·.Reaches stop) q v (c.view d) ∧
        c.Placed d ∧ c.KeepsTo handed stop q (next ()) .past) := by
  cases t with
  | done a => exact absurd rfl (h.isOut v d)
  | step e next =>
      obtain ⟨⟨hwork, hpartway⟩ | ⟨rfl, hchanges, hplaced⟩, hrest⟩ := h
      · exact .inl ⟨e, next, rfl, hwork, hpartway⟩
      · exact .inr ⟨next, rfl, hchanges, hplaced, hrest () .past rfl⟩

theorem Guarded.offers (h : c.Guarded handed stop s)
    (hhands : ∀ (n : Nat) q t, s.calls[n]? = some (q, t) → q.Hands handed) :
    c.Offers handed stop (c.view s.world.disk) := by
  cases h with
  | free _ _ hoffers => exact hoffers
  | held n q t v _ hcall _ hoffers _ hinside _ =>
      rcases hinside.inside_cases with ⟨_, _, _, _, hpartway⟩ | ⟨_, _, hchanges, _, _⟩
      · exact hoffers.partway (hhands n q t hcall) hpartway
      · exact hoffers.changes (hhands n q t hcall) hchanges

theorem KeepsTo.look (h : c.KeepsTo handed stop q (.step e next) .outside) (he : e.isLook)
    (hclock : s.world.now.Reaches stop) (hoffers : c.Offers handed stop (c.view s.world.disk)) :
    c.KeepsTo handed stop q (next (s.reply e)) .outside := by
  cases e with
  | read path => exact h.2 _ _ ⟨⟨s.world.disk, hoffers, rfl⟩, rfl⟩
  | now => exact h.2 _ _ ⟨hclock, rfl⟩
  | _ => cases he

theorem KeepsTo.work (h : c.KeepsTo handed stop q (.step e next) (.inside v s.world.disk))
    (he : e.isFileWork) (hclock : s.world.now.Reaches stop) (hgranted : e.isGranted (s.reply e)) :
    c.KeepsTo handed stop q (next (s.reply e))
      (.inside v (s.world.perform World.nobody e).2.disk) := by
  obtain ⟨hanswers, -⟩ :=
    Disk.answers_perform (·.Reaches stop) he hclock hgranted
  cases e with
  | read | write | rename | remove | makeFolders | now => exact h.2 _ _ ⟨_, hanswers, rfl⟩
  | _ => cases he

/-- After an effect of a call, what holds of the call then and of all others before holds of all. -/
theorem isOut_perform (hn : s.calls[n]? = some (q, .step e next))
    (hself : c.IsOut handed stop (q, next (s.reply e)))
    (hothers : ∀ (m : Nat) call, m ≠ n → s.calls[m]? = some call → c.IsOut handed stop call) :
    ∀ (m : Nat) call, (s.perform n q e next).calls[m]? = some call → c.IsOut handed stop call := by
  rintro m ⟨q', t'⟩ hm
  rcases Throng.calls_perform hn hm with ⟨-, rfl, rfl⟩ | ⟨hne, hm⟩
  · exact hself
  · exact hothers m _ hne hm

theorem Guarded.perform_free (hgate : s.taken = []) (hplaced : c.Placed s.world.disk)
    (hoffers : c.Offers handed stop (c.view s.world.disk))
    (hsettled : Settled s.deeds (c.view s.world.disk))
    (hcalls : ∀ (n : Nat) call, s.calls[n]? = some call → c.IsOut handed stop call)
    (hclock : s.world.now.Reaches stop) (hn : s.calls[n]? = some (q, .step e next)) :
    c.Guarded handed stop (s.perform n q e next) := by
  rcases hcalls n _ hn with hout | hpast
  · rcases hout.1 with hlook | ⟨rfl, hchange⟩
    · have hworld : (s.perform n q e next).world = s.world := perform_look hlook
      refine .free ?_ ?_ ?_ ?_ (isOut_perform hn (.inl (hout.look hlook hclock hoffers))
        fun m call _ => hcalls m call)
      · rw [Throng.perform, hold_of_isLook hlook, hgate]
      · rwa [hworld]
      · rwa [hworld]
      · rw [hworld]
        exact hsettled.congr (ne_leave_of_isLook hlook)
    · refine .held n q (next ()) (c.view s.world.disk) ?_ ?_ hchange hoffers
        (hsettled.congr (by rintro ⟨⟩)) (hout.2 _ _ ⟨_, hoffers, hplaced, rfl⟩) ?_
      · rw [Throng.perform, hgate]
        rfl
      · exact Throng.calls_perform_self (Throng.length_of_calls hn)
      · intro m call hne hm
        exact hcalls m call ((Throng.calls_perform_of_ne hne).symm.trans hm)
  · exact absurd hpast.1 id

theorem Guarded.perform_other {m : Nat} {q' : CacheCall} {t : Job CacheAnswer}
    (hgate : s.taken = [.index]) (hm : s.calls[m]? = some (q', t)) (hchange : q'.isChange)
    (hoffers : c.Offers handed stop v) (hsettled : Settled s.deeds v)
    (hinside : c.KeepsTo handed stop q' t (.inside v s.world.disk))
    (hcalls : ∀ (n : Nat) call, n ≠ m → s.calls[n]? = some call → c.IsOut handed stop call)
    (hshown : c.Offers handed stop (c.view s.world.disk)) (hclock : s.world.now.Reaches stop)
    (hne : n ≠ m) (hn : s.calls[n]? = some (q, .step e next)) (hopen : s.isOpen e) :
    c.Guarded handed stop (s.perform n q e next) := by
  rcases hcalls n _ hne hn with hout | hpast
  · rcases hout.1 with hlook | ⟨rfl, -⟩
    · have hworld : (s.perform n q e next).world = s.world := perform_look hlook
      refine .held m q' t v ?_ ?_ hchange hoffers (hsettled.congr (ne_leave_of_isLook hlook)) ?_ ?_
      · rw [Throng.perform, hold_of_isLook hlook, hgate]
      · rwa [Throng.calls_perform_of_ne hne.symm]
      · rwa [hworld]
      · rintro k ⟨r, u⟩ hkm hk
        rcases Throng.calls_perform hn hk with ⟨-, rfl, rfl⟩ | ⟨-, hk⟩
        · exact .inl (hout.look hlook hclock hshown)
        · exact hcalls k _ hkm hk
    · -- the gate is taken, so nobody else enters it
      simp [Throng.isOpen, hgate] at hopen
  · exact absurd hpast.1 id

/-- The call in the gate goes on with its work, or leaves. -/
theorem Guarded.perform_held (hgate : s.taken = [.index])
    (hn : s.calls[n]? = some (q, .step e next)) (hchange : q.isChange)
    (hoffers : c.Offers handed stop v) (hsettled : Settled s.deeds v)
    (hinside : c.KeepsTo handed stop q (.step e next) (.inside v s.world.disk))
    (hcalls : ∀ (m : Nat) call, m ≠ n → s.calls[m]? = some call → c.IsOut handed stop call)
    (hhands : q.Hands handed) (hclock : s.world.now.Reaches stop)
    (hgranted : e.isGranted (s.reply e)) : c.Guarded handed stop (s.perform n q e next) := by
  rcases hinside.inside_cases with
    ⟨e', next', heq, hwork, -⟩ | ⟨next', heq, hchanges, hplaced, hpast⟩
  · cases heq
    refine .held n q (next (s.reply e)) v ?_ ?_ hchange hoffers
      (hsettled.congr (ne_leave_of_isFileWork hwork)) (hinside.work hwork hclock hgranted) ?_
    · rw [Throng.perform, hold_of_isFileWork hwork, hgate]
    · exact Throng.calls_perform_self (Throng.length_of_calls hn)
    · intro m call hne hm
      exact hcalls m call hne ((Throng.calls_perform_of_ne hne).symm.trans hm)
  · cases heq
    refine .free ?_ hplaced (hoffers.changes hhands hchanges) (hsettled.changes hchanges)
      (isOut_perform hn (.inr hpast) hcalls)
    rw [Throng.perform, hgate]
    rfl

theorem Guarded.step (hc : c.isEnabled) (h : c.Guarded handed stop s)
    (hhands : ∀ (n : Nat) q t, s.calls[n]? = some (q, t) → q.Hands handed)
    (hclock : s.world.now.Reaches stop) {move : Move CacheCall}
    (hmove : ∀ q, move = .call q → q.isMeasurable) (hgrants : s.grants move)
    {s' : Throng CacheCall CacheAnswer} (hstep : Throng.Stepped c.job s move s') :
    c.Guarded handed stop s' := by
  have hshown := h.offers hhands
  cases hstep with
  | idle => exact h
  | call q =>
      have hjob : c.IsOut handed stop (q, c.job q) :=
        .inl (among_job hc (fun d hd => hd.isKey) (hmove q rfl))
      cases h with
      | free hgate hplaced hoffers hsettled hcalls =>
          refine .free hgate hplaced hoffers hsettled ?_
          rintro m ⟨q', t'⟩ hm
          rcases Throng.calls_call hm with hm | ⟨-, rfl, rfl⟩
          · exact hcalls m _ hm
          · exact hjob
      | held n q' t v hgate hcall hchange hoffers hsettled hinside hcalls =>
          refine .held n q' t v hgate ?_ hchange hoffers hsettled hinside ?_
          · exact List.getElem?_append_left (Throng.length_of_calls hcall) ▸ hcall
          · rintro m ⟨r, u⟩ hne hm
            rcases Throng.calls_call hm with hm | ⟨-, rfl, rfl⟩
            · exact hcalls m _ hne hm
            · exact hjob
  | @act n q e next hn hopen =>
      cases h with
      | free hgate hplaced hoffers hsettled hcalls =>
          exact .perform_free hgate hplaced hoffers hsettled hcalls hclock hn
      | held m q' t v hgate hcall hchange hoffers hsettled hinside hcalls =>
          by_cases hne : n = m
          · subst hne
            obtain ⟨rfl, rfl⟩ := Prod.mk.inj (Option.some.inj (hn.symm.trans hcall))
            exact .perform_held hgate hn hchange hoffers hsettled hinside hcalls
              (hhands n q _ hn) hclock (Throng.isGranted_of_grants hgrants hn hopen)
          · exact .perform_other hgate hcall hchange hoffers hsettled hinside hcalls hshown
              hclock hne hn hopen
  | clock =>
      cases h with
      | free hgate hplaced hoffers hsettled hcalls =>
          exact .free hgate hplaced hoffers hsettled hcalls
      | held n q t v hgate hcall hchange hoffers hsettled hinside hcalls =>
          exact .held n q t v hgate hcall hchange hoffers hsettled hinside hcalls

end Cache

end StatAlmanac
