import StatAlmanac.Proofs.Almanac.Step
import StatAlmanac.Proofs.Entity.Key

/-!
Requests one after the other, with sweeps between them, on a disk that refuses
nothing. A request answers from the cache, or fails, and leaves what shows of the
cache; or else it puts its page there. A sweep takes away what is stale.
-/

namespace StatAlmanac

namespace Cache

variable {c : Cache} {d : Disk} {key name : String} {document : Bytes} {now : Stamp} {v : View}
  {others : World.Others} {w : World}

theorem getOn_eq (hc : c.isEnabled) (hkey : isKey key) :
    c.getOn d now key =
      (((c.view d).index.find? key).filter fun r => (c.toEntry key r).isFresh now).bind fun _ =>
        (c.view d).documents key := by
  rw [getOn, isFreshOn, entryOn, if_pos hc, documents_view hkey]
  show (if (((c.indexOn d).find? key).map (c.toEntry key)).any (·.isFresh now) then _ else none) =
    (((c.indexOn d).find? key).filter _).bind _
  cases (c.indexOn d).find? key with
  | none => rfl
  | some r =>
      rw [Option.map_some, Option.any_some, Option.filter_some]
      cases (c.toEntry key r).isFresh now <;> rfl

theorem ensures_put_view (hc : c.isEnabled) (hkey : isKey key) (hsize : document.length < bound64)
    (hfolder : ∀ d', w.disk.makeFolders c.folder = (.ok (), d') → c.view d' = v) :
    (c.put key name document).Ensures others w fun _ w' =>
      c.Placed w'.disk ∧ c.view w'.disk = v.put key name w.now document ∧
        w' = { w with disk := w'.disk } := by
  rw [put_eq, hc, hkey]
  refine .now (.inside
    ((ensures_of_alone
      (abides_lay (I := fun _ => True) hkey hsize hfolder trivial trivial trivial)).mono ?_))
  rintro r w' ⟨⟨-, hleads, hview⟩, hw'⟩
  exact ⟨.inr hleads, hview, hw'⟩

theorem ensures_sweep_view (hc : c.isEnabled) (hplaced : c.Placed w.disk)
    (hkeys : ∀ key r, (c.view w.disk).index.find? key = some r → isKey key) :
    c.sweep.Ensures others w fun _ w' =>
      c.Placed w'.disk ∧
        (c.view w'.disk = c.view w.disk ∨ c.view w'.disk = (c.view w.disk).sweep c w.now) ∧
        w' = { w with disk := w'.disk } := by
  rw [sweep_eq, hc]
  refine .inside ((ensures_of_alone (abides_clean (I := fun _ => True) hkeys trivial
    fun _ _ _ _ => trivial)).mono ?_)
  rintro r w' ⟨⟨hplaced', hview⟩, hw'⟩
  refine ⟨hplaced' hplaced, hview.imp_right ?_, hw'⟩
  rintro ⟨now, rfl, hview⟩
  exact hview

end Cache

namespace Almanac

variable {a : Almanac} {k : Kind} {name : String} {clock : Stamp → Prop} {others : World.Others}
  {w : World} {v : View}

/-! ### One request -/

/-- No page that comes back is longer than 64 bits can say. -/
def IsMeasured (remote : Nat → String → Outcome) : Prop :=
  ∀ n url response, remote n url = .ok response → response.body.length < bound64

/-- How a request ends, and what it leaves on the disk, `v` showing there once the folder of the
cache has been made. -/
inductive Requested (a : Almanac) (clock : Stamp → Prop) (k : Kind) (name : String) (v : View)
    (w : World) : Except FetchError Document → Disk → Prop where
  | hit {body : Bytes} : a.cache.getOn w.disk w.now (keyOf k name) = some body →
      Requested a clock k name v w (.ok (a.document k name body true)) w.disk
  | failed {n : Nat} {e : FetchError} : a.cache.getOn w.disk w.now (keyOf k name) = none →
      Fetch.ended a.plan (a.url k name) (w.remote n (a.url k name)) = .error e →
      Requested a clock k name v w (.error e) w.disk
  | stored {n : Nat} {body : Bytes} {now : Stamp} {source : String} {d : Disk} :
      a.cache.getOn w.disk w.now (keyOf k name) = none →
      Fetch.ended a.plan (a.url k name) (w.remote n (a.url k name)) = .ok body →
      clock now → a.cache.Placed d → a.cache.view d = v.put (keyOf k name) source now body →
      Requested a clock k name v w (.ok (a.document k name body false)) d

theorem giveWay_of_idle (hidle : World.Idle clock others) (hw : clock w.now) :
    ∃ now, clock now ∧ w.giveWay others = { w with now } := by
  obtain ⟨now, hnow, hothers⟩ := hidle (w.elapsed + 1) w hw
  refine ⟨now, hnow, ?_⟩
  rw [World.giveWay, hothers]

theorem ensures_keep (hidle : World.Idle clock others) (hw : clock w.now) (hc : a.cache.isEnabled)
    {body : Bytes} (hsize : body.length < bound64)
    (hfolder : ∀ d', w.disk.makeFolders a.cache.folder = (.ok (), d') → a.cache.view d' = v) :
    (a.keep k name (.ok body)).Ensures others w fun r w' =>
      r = .ok (a.document k name body false) ∧ a.cache.Placed w'.disk ∧
        (∃ source, a.cache.view w'.disk = v.put (keyOf k name) source w.now body) ∧
        clock w'.now ∧ w'.remote = w.remote := by
  let source := (a.document k name body false).sourceName
  have hstored : (Job.aside (a.cache.put (keyOf k name) source body)).Ensures others w fun _ w' =>
      a.cache.Placed w'.disk ∧
        (∃ source, a.cache.view w'.disk = v.put (keyOf k name) source w.now body) ∧
        clock w'.now ∧ w'.remote = w.remote := by
    refine .aside ((Cache.ensures_put_view hc (isKey_keyOf k name) hsize hfolder).mono ?_)
    rintro - w₁ ⟨hplaced, hview, hw₁⟩
    have hnow : clock w₁.now := by rwa [hw₁]
    obtain ⟨now, hnow', hgive⟩ := giveWay_of_idle hidle hnow
    rw [hgive]
    exact ⟨hplaced, ⟨source, hview⟩, hnow', by rw [hw₁]⟩
  exact hstored.bind fun _ w' h => .pure ⟨rfl, h⟩

theorem ensures_request (hidle : World.Idle clock others) (hw : clock w.now)
    (hc : a.cache.isEnabled) (hbody : IsMeasured w.remote)
    (hfolder : ∀ d', w.disk.makeFolders a.cache.folder = (.ok (), d') → a.cache.view d' = v) :
    (a.fetchDocument k name).Ensures others w fun r w' =>
      a.Requested clock k name v w r w'.disk ∧ clock w'.now ∧ w'.remote = w.remote := by
  rw [fetchDocument_eq]
  refine .bind (.aside (Q := fun r w' => r = a.cache.getOn w.disk w.now (keyOf k name) ∧
    w'.disk = w.disk ∧ clock w'.now ∧ w'.remote = w.remote) fun _ => ?_) ?_
  · rw [Cache.runWith_get]
    obtain ⟨now, hnow, hgive⟩ := giveWay_of_idle hidle hw
    rw [hgive]
    exact ⟨rfl, rfl, hnow, rfl⟩
  · rintro r w₁ ⟨rfl, hdisk, hw₁, hremote⟩
    cases hfound : a.cache.getOn w.disk w.now (keyOf k name) with
    | some body =>
        refine .count (.pure ⟨?_, hw₁, hremote⟩)
        exact hdisk ▸ .hit hfound
    | none =>
        have hfetch : (Fetch.fetch a.plan (a.url k name)).Ensures others
            { w₁ with metrics := w₁.metrics.add .miss } _ := Fetch.ensures_fetch hidle hw₁
        refine .count (hfetch.bind ?_)
        rintro r w₂ ⟨hw₂, hdisk₂, hremote₂, n, rfl⟩
        replace hdisk₂ : w₂.disk = w.disk := hdisk₂.trans hdisk
        replace hremote₂ : w₂.remote = w.remote := hremote₂.trans hremote
        have hheard : Fetch.ended a.plan (a.url k name) (w₁.remote n (a.url k name)) =
            Fetch.ended a.plan (a.url k name) (w.remote n (a.url k name)) := by rw [hremote]
        show (a.keep k name
            (Fetch.ended a.plan (a.url k name) (w₁.remote n (a.url k name)))).Ensures
          others w₂ _
        rw [hheard]
        cases hended : Fetch.ended a.plan (a.url k name) (w.remote n (a.url k name)) with
        | error e => exact .pure ⟨hdisk₂ ▸ .failed hfound hended, hw₂, hremote₂⟩
        | ok body =>
            obtain ⟨response, hresponse, rfl⟩ := Fetch.heard_of_ended hended
            refine (ensures_keep hidle hw₂ hc (hbody n _ response hresponse)
              (hdisk₂ ▸ hfolder)).mono ?_
            rintro r w₃ ⟨rfl, hplaced, ⟨source, hview⟩, hw₃, hremote₃⟩
            exact ⟨.stored hfound hended hw₂ hplaced hview, hw₃, hremote₃.trans hremote₂⟩

/-! ### Calls one after the other -/

inductive Call where
  | page (k : Kind) (name : String)
  | sweep

def job (a : Almanac) : Call → Job Unit
  | .page k name => (fun _ => ()) <$> a.fetchDocument k name
  | .sweep => (fun _ => ()) <$> a.cache.sweep

def after (others : World.Others) (a : Almanac) : World → List (Stamp × Call) → World
  | w, [] => w
  | w, (now, q) :: rest => after others a ((a.job q).runWith others { w with now }).2 rest

/-- In the course of these calls nothing that is asked of the disk is refused. -/
def goesSmoothly (others : World.Others) (a : Almanac) : World → List (Stamp × Call) → Bool
  | _, [] => true
  | w, (now, q) :: rest =>
      (a.job q).isSmooth others { w with now } &&
        goesSmoothly others a ((a.job q).runWith others { w with now }).2 rest

theorem after_invariant {I : World → Prop} {calls : List (Stamp × Call)}
    (hstep : ∀ w, I w → ∀ now q, (now, q) ∈ calls →
      (a.job q).Ensures others { w with now } fun _ w' => I w')
    (h : I w) (hsmooth : a.goesSmoothly others w calls) : I (a.after others w calls) := by
  induction calls generalizing w with
  | nil => exact h
  | cons first rest ih =>
      obtain ⟨now, q⟩ := first
      rw [goesSmoothly, Bool.and_eq_true] at hsmooth
      have hfirst := hstep w h now q List.mem_cons_self hsmooth.1
      exact ih (fun w' hw' now' q' hq => hstep w' hw' now' q' (List.mem_cons_of_mem _ hq)) hfirst
        hsmooth.2

/-- What shows of the cache after a call, `v` having shown before it. -/
inductive Changes (a : Almanac) (clock : Stamp → Prop) (w : World) (v : View) :
    Call → View → Prop where
  | hit {k : Kind} {name : String} {body : Bytes} :
      a.cache.getOn w.disk w.now (keyOf k name) = some body → Changes a clock w v (.page k name) v
  | failed {k : Kind} {name : String} {n : Nat} {e : FetchError} :
      a.cache.getOn w.disk w.now (keyOf k name) = none →
      Fetch.ended a.plan (a.url k name) (w.remote n (a.url k name)) = .error e →
      Changes a clock w v (.page k name) v
  | put {k : Kind} {name source : String} {n : Nat} {body : Bytes} {now : Stamp} :
      a.cache.getOn w.disk w.now (keyOf k name) = none →
      Fetch.ended a.plan (a.url k name) (w.remote n (a.url k name)) = .ok body → clock now →
      Changes a clock w v (.page k name) (v.put (keyOf k name) source now body)
  | sweep : Changes a clock w v .sweep (v.sweep a.cache w.now)
  | leave : Changes a clock w v .sweep v

/-- A world in which calls go on as they should: the folder of the cache is there, or is made with
nothing in it, and its index lists keys only. -/
structure IsSound (a : Almanac) (remote : Nat → String → Outcome) (w : World) : Prop where
  placed : a.cache.Placed w.disk
  keys : ∀ key r, (a.cache.view w.disk).index.find? key = some r → Cache.isKey key
  remote : w.remote = remote

theorem Changes.keys {w : World} {v v' : View} {q : Call} (h : a.Changes clock w v q v')
    (hv : ∀ key r, v.index.find? key = some r → Cache.isKey key) :
    ∀ key r, v'.index.find? key = some r → Cache.isKey key := by
  intro key r hr
  cases h with
  | hit | failed | leave => exact hv key r hr
  | put =>
      rw [View.find?_index_put] at hr
      split at hr
      · rename_i hkey
        exact hkey ▸ isKey_keyOf _ _
      · exact hv key r hr
  | sweep =>
      rw [View.find?_index_sweep, Option.filter_eq_some_iff] at hr
      exact hv key r hr.1

theorem ensures_job (hidle : World.Idle clock others) (hc : a.cache.isEnabled)
    {remote : Nat → String → Outcome} (hbody : IsMeasured remote) (h : a.IsSound remote w)
    (hw : clock w.now) (q : Call) :
    (a.job q).Ensures others w fun _ w' =>
      a.Changes clock w (a.cache.view w.disk) q (a.cache.view w'.disk) ∧ a.IsSound remote w' := by
  cases q with
  | page k name =>
      have hmeasured : IsMeasured w.remote := h.remote ▸ hbody
      refine .map ((ensures_request hidle hw hc hmeasured
        fun d' hmake => (h.placed.makeFolders hmake).2).mono ?_)
      rintro r w' ⟨hrequested, -, hremote⟩
      generalize hd : w'.disk = d at hrequested
      have hsound (hchanges : a.Changes clock w (a.cache.view w.disk) (.page k name)
          (a.cache.view d))
          (hplaced : a.cache.Placed d) :
          a.Changes clock w (a.cache.view w.disk) (.page k name) (a.cache.view d) ∧
            a.IsSound remote w' :=
        ⟨hchanges, hd ▸ hplaced, hd ▸ hchanges.keys h.keys, hremote.trans h.remote⟩
      cases hrequested with
      | hit hfound => exact hsound (.hit hfound) h.placed
      | failed hnone hended => exact hsound (.failed hnone hended) h.placed
      | stored hnone hended hnow hplaced hview =>
        exact hsound (hview ▸ .put hnone hended hnow) hplaced
  | sweep =>
      refine .map ((Cache.ensures_sweep_view hc h.placed h.keys).mono ?_)
      rintro r w' ⟨hplaced, hview, hw'⟩
      have hchanges : a.Changes clock w (a.cache.view w.disk) .sweep (a.cache.view w'.disk) := by
        rcases hview with hview | hview
        · exact hview ▸ .leave
        · exact hview ▸ .sweep
      refine ⟨hchanges, hplaced, hchanges.keys h.keys, ?_⟩
      rw [hw']
      exact h.remote

end Almanac

end StatAlmanac
