import StatAlmanac.Proofs.Cache.Inside
import StatAlmanac.Proofs.Cache.Refinement

/-!
What one call of the cache does among others. Lookups only look: at the index, at
the time of day, at a document, each as it is at that moment. A `put` and a
`sweep` enter the gate, where they change what shows from one view to the next,
and with that they are done. So each call abides by a pact, whatever others do
between its effects.
-/

namespace StatAlmanac

def Effect.isLook : Effect → Bool
  | .read _ | .now => true
  | _ => false

def CacheCall.isChange : CacheCall → Bool
  | .put _ _ _ | .sweep => true
  | _ => false

namespace Cache

variable {c : Cache} {d d' : Disk} {key name : String} {document : Bytes} {v v' : View}
  {clock : Stamp → Prop} {seen : Disk → Prop} {q : CacheCall} {α : Type}

/-! ### Lookups -/

/-- The pact of who only looks. Each look may be at another one of the disks `seen`. -/
def looking (clock : Stamp → Prop) (seen : Disk → Prop) : Pact Unit where
  allows _ e := e.isLook
  expects
    | _, .read path, r, _ => ∃ d, seen d ∧ r = d.read path
    | _, .now, now, _ => clock now
    | _, _, _, _ => False

theorem looks_load :
    c.load.Abides (looking clock seen) () fun r _ => ∃ d, seen d ∧ r = c.loadOn d := by
  refine .act rfl ?_
  rintro r - ⟨d, hd, rfl⟩
  refine Job.Abides.mono (Q := fun r _ => r = c.loadOn d) ?_ fun r _ hr => ⟨d, hd, hr⟩
  rw [loadOn]
  cases d.read c.indexPath with
  | ok content => rfl
  | error e => cases e <;> rfl

theorem looks_index :
    c.index.Abides (looking clock seen) () fun r _ => ∃ d, seen d ∧ r = (c.view d).index := by
  refine looks_load.bind ?_
  rintro r - ⟨d, hd, rfl⟩
  exact ⟨d, hd, rfl⟩

theorem looks_entry (hc : c.isEnabled) :
    (c.entry key).Abides (looking clock seen) () fun r _ =>
      ∃ d, seen d ∧ r = ((c.view d).index.find? key).map (c.toEntry key) := by
  rw [entry, hc]
  refine looks_index.bind ?_
  rintro r - ⟨d, hd, rfl⟩
  exact ⟨d, hd, rfl⟩

theorem looks_entries (hc : c.isEnabled) :
    c.entries.Abides (looking clock seen) () fun _ _ => True := by
  rw [entries, hc]
  exact looks_index.bind fun _ _ _ => trivial

/-- What a `get` finds: no record, a stale one, or what is in the file of the document by then. -/
inductive Finds (c : Cache) (clock : Stamp → Prop) (seen : Disk → Prop) (key : String) :
    Option Bytes → Prop where
  | missing {d : Disk} : seen d → (c.view d).index.find? key = none → Finds c clock seen key none
  | stale {d : Disk} {r : Record} {now : Stamp} : seen d →
      (c.view d).index.find? key = some r → clock now → (c.toEntry key r).isFresh now = false →
      Finds c clock seen key none
  | fresh {d d' : Disk} {r : Record} : seen d → (c.view d).index.find? key = some r → seen d' →
      Finds c clock seen key (d'.read (c.documentPath key)).toOption

theorem looks_get (hc : c.isEnabled) :
    (c.get key).Abides (looking clock seen) () fun found _ => c.Finds clock seen key found := by
  rw [get]
  refine (looks_entry hc).bind ?_
  rintro r - ⟨d, hd, rfl⟩
  cases hr : (c.view d).index.find? key with
  | none => exact .missing hd hr
  | some r =>
      refine .act rfl fun now _ hnow => ?_
      cases hfresh : (c.toEntry key r).isFresh now with
      | false =>
          rw [if_neg Bool.false_ne_true]
          exact .stale hd hr hnow hfresh
      | true =>
          rw [if_pos rfl]
          refine .act rfl ?_
          rintro r - ⟨d', hd', rfl⟩
          exact .fresh hd hr hd'

/-! ### Changes -/

/-- What shows when a call is in the gate, `v` having shown when it came. -/
inductive Partway (c : Cache) (clock : Stamp → Prop) : CacheCall → View → View → Prop where
  | start (q : CacheCall) (v : View) : Partway c clock q v v
  | store {key name : String} {document : Bytes} (v : View) :
      Partway c clock (.put key name document) v (v.store key document)
  | clear {now : Stamp} {gone : List String} (v : View) : clock now →
      gone ⊆ c.staleKeys now v.index → Partway c clock .sweep v (v.clear gone)

/-- What shows when a call leaves the gate, `v` having shown when it came. -/
inductive Changes (c : Cache) (clock : Stamp → Prop) : CacheCall → View → View → Prop where
  | put {key name : String} {document : Bytes} {now : Stamp} (v : View) : isKey key → clock now →
      Changes c clock (.put key name document) v (v.put key name now document)
  | sweep {now : Stamp} (v : View) : clock now → Changes c clock .sweep v (v.sweep c now)
  | leave (v : View) : Changes c clock .sweep v v

theorem Partway.index_eq (h : c.Partway clock q v v') : v'.index = v.index := by
  cases h <;> rfl

inductive Stand where
  | outside
  /-- In the gate: which view showed when the call came, and what the disk is like now. -/
  | inside (v : View) (d : Disk)
  | past

/-- The pact of a call among others. One that changes what is stored enters the gate, once, and
works on the disk only there. -/
def among (c : Cache) (clock : Stamp → Prop) (seen : Disk → Prop) (q : CacheCall) :
    Pact Stand where
  allows
    | .outside, e => e.isLook ∨ (e = .enter .index ∧ q.isChange)
    | .inside v d, e =>
        (e.isFileWork ∧ c.Partway clock q v (c.view d)) ∨
          (e = .leave .index ∧ c.Changes clock q v (c.view d) ∧ c.Placed d)
    | .past, _ => False
  expects
    | .outside, .read path, r, s => (∃ d, seen d ∧ r = d.read path) ∧ s = .outside
    | .outside, .now, now, s => clock now ∧ s = .outside
    | .outside, .enter _, _, s => ∃ d, seen d ∧ c.Placed d ∧ s = .inside (c.view d) d
    | .inside _ _, .leave _, _, s => s = .past
    | .inside v d, e, r, s => ∃ d', d.Answers clock e r d' ∧ s = .inside v d'
    | _, _, _, _ => False

theorem among_of_looking {t : Job α} {Q : α → Prop}
    (h : t.Abides (looking clock seen) () fun a _ => Q a) :
    t.Abides (c.among clock seen q) .outside fun a s => Q a ∧ s = .outside := by
  refine (h.embed (c.among clock seen q) (fun _ => .outside)
    (fun _ e he => .inl he) ?_).mono ?_
  · intro _ e r s he hr
    cases e with
    | read path => exact ⟨(), hr.1, hr.2⟩
    | now => exact ⟨(), hr.1, hr.2⟩
    | _ => cases he
  · rintro a s ⟨-, ha, rfl⟩
    exact ⟨ha, rfl⟩

theorem among_of_alone {t : Job α} {Q : α → Disk → Prop}
    (h : t.Abides (c.alone clock (c.Partway clock q v)) d Q) :
    t.Abides (c.among clock seen q) (.inside v d) fun a s => ∃ d', Q a d' ∧ s = .inside v d' := by
  refine h.embed (c.among clock seen q) (.inside v) (fun d e he => .inl he) ?_
  intro d e r s he hr
  cases e with
  | read | write | rename | remove | makeFolders | now => exact hr
  | _ => cases he.1

theorem among_inside {t : Job α} {R : α → Prop} (hq : q.isChange)
    (h : ∀ d, seen d → c.Placed d →
      t.Abides (c.alone clock (c.Partway clock q (c.view d))) d fun a d' =>
        c.Changes clock q (c.view d) (c.view d') ∧ c.Placed d' ∧ R a) :
    (Job.inside .index t).Abides (c.among clock seen q) .outside fun a s => R a ∧ s = .past := by
  refine .act (.inr ⟨rfl, hq⟩) ?_
  rintro - s ⟨d, hd, hplaced, rfl⟩
  refine (among_of_alone (h d hd hplaced)).bind ?_
  rintro a s ⟨d', ⟨hchanges, hplaced', ha⟩, rfl⟩
  refine .act (.inr ⟨rfl, hchanges, hplaced'⟩) ?_
  rintro - s rfl
  exact ⟨ha, rfl⟩

theorem among_put (hc : c.isEnabled) (hsize : document.length < bound64) :
    (c.put key name document).Abides (c.among clock seen (.put key name document)) .outside
      fun r s => s = .past ∨ (r ≠ .ok () ∧ s = .outside) := by
  rw [put_eq, hc]
  refine .act (.inl rfl) ?_
  rintro now s ⟨hnow, rfl⟩
  by_cases hkey : isKey key
  · rw [hkey]
    refine (among_inside (R := fun _ => True) rfl fun d _ hplaced => ?_).mono fun r s h => .inl h.2
    refine (abides_lay hkey hsize (fun d' hmake => (hplaced.makeFolders hmake).2) (.start _ _)
      (.start _ _) (.store _)).mono ?_
    rintro r d' ⟨-, hleads, hview⟩
    exact ⟨hview ▸ .put _ hkey hnow, .inr hleads, trivial⟩
  · rw [Bool.eq_false_iff.2 hkey]
    refine .pure (.inr ⟨?_, rfl⟩)
    rintro ⟨⟩

theorem among_sweep (hc : c.isEnabled)
    (hkeys : ∀ d, seen d → ∀ key r, (c.view d).index.find? key = some r → isKey key) :
    c.sweep.Abides (c.among clock seen .sweep) .outside fun _ s => s = .past := by
  rw [sweep_eq, hc]
  refine (among_inside (R := fun _ => True) rfl fun d hd hplaced => ?_).mono fun r s h => h.2
  refine (abides_clean (hkeys d hd) (.start _ _) fun now gone => .clear _).mono ?_
  rintro r d' ⟨hplaced', hview | ⟨now, hnow, hview⟩⟩
  · exact ⟨hview ▸ .leave _, hplaced' hplaced, trivial⟩
  · exact ⟨hview ▸ .sweep _ hnow, hplaced' hplaced, trivial⟩

/-! ### All calls -/

structure Ends (c : Cache) (clock : Stamp → Prop) (seen : Disk → Prop) (q : CacheCall)
    (a : CacheAnswer) (s : Stand) : Prop where
  isOut : ∀ v d, s ≠ .inside v d
  put : ∀ key name document, q = .put key name document → a = .put (.ok ()) → s = .past
  get : ∀ key found, q = .get key → a = .get found → c.Finds clock seen key found

theorem among_lookup {t : Job α} {answer : α → CacheAnswer}
    (ht : t.Abides (looking clock seen) () fun _ _ => True)
    (hput : ∀ key name document, q ≠ .put key name document) (hget : ∀ key, q ≠ .get key) :
    (answer <$> t).Abides (c.among clock seen q) .outside (c.Ends clock seen q) := by
  refine .map ((among_of_looking ht).mono ?_)
  rintro a s ⟨-, rfl⟩
  refine ⟨?_, fun key name document hq => absurd hq (hput key name document),
    fun key found hq => absurd hq (hget key)⟩
  rintro v d ⟨⟩

theorem looks_isFresh (hc : c.isEnabled) :
    (c.isFresh key).Abides (looking clock seen) () fun _ _ => True := by
  refine (looks_entry hc).bind fun r _ _ => ?_
  cases r with
  | none => trivial
  | some e => exact .act rfl fun _ _ _ => trivial

theorem looks_summary (hc : c.isEnabled) :
    c.summary.Abides (looking clock seen) () fun _ _ => True :=
  (looks_entries hc).bind fun _ _ _ => .act rfl fun _ _ _ => trivial

theorem among_job (hc : c.isEnabled)
    (hkeys : ∀ d, seen d → ∀ key r, (c.view d).index.find? key = some r → isKey key)
    (hq : q.isMeasurable) :
    (c.job q).Abides (c.among clock seen q) .outside (c.Ends clock seen q) := by
  cases q with
  | put key name document =>
      refine .map ((among_put hc (of_decide_eq_true hq)).mono ?_)
      rintro r s (rfl | ⟨hr, rfl⟩)
      · refine ⟨?_, fun _ _ _ _ _ => rfl, ?_⟩
        · rintro v d ⟨⟩
        · rintro key found ⟨⟩
      · refine ⟨?_, fun _ _ _ _ ha => absurd (CacheAnswer.put.inj ha) hr, ?_⟩
        · rintro v d ⟨⟩
        · rintro key found ⟨⟩
  | sweep =>
      refine .map ((among_sweep hc hkeys).mono ?_)
      rintro r s rfl
      refine ⟨?_, ?_, ?_⟩
      · rintro v d ⟨⟩
      · rintro key name document ⟨⟩
      · rintro key found ⟨⟩
  | get key =>
      refine .map ((among_of_looking (looks_get hc)).mono ?_)
      rintro found s ⟨hfound, rfl⟩
      refine ⟨?_, ?_, ?_⟩
      · rintro v d ⟨⟩
      · rintro key name document ⟨⟩
      · rintro key found ⟨⟩ ⟨⟩
        exact hfound
  | isFresh key => exact among_lookup (looks_isFresh hc) (by simp) (by simp)
  | entry key => exact among_lookup ((looks_entry hc).mono fun _ _ _ => trivial) (by simp) (by simp)
  | entries => exact among_lookup (looks_entries hc) (by simp) (by simp)
  | size =>
      exact among_lookup ((looks_entries hc).bind fun _ _ _ => trivial) (by simp) (by simp)
  | summary => exact among_lookup (looks_summary hc) (by simp) (by simp)

end Cache

end StatAlmanac
