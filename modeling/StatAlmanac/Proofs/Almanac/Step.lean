import StatAlmanac.Almanac
import StatAlmanac.Proofs.Cache.Confinement
import StatAlmanac.Proofs.Cache.Work
import StatAlmanac.Proofs.Fetch.Heard

/-!
One request for a page, in whatever state the almanac is. The lookup decides: either
the page comes from the cache, and then nothing is sent or stored, or it is what one
fetch comes to, and then the store of it makes no difference to the answer.
-/

namespace StatAlmanac

def Effect.changesDisk : Effect → Bool
  | .write _ _ | .rename _ _ | .remove _ | .makeFolders _ => true
  | _ => false

def Effect.readsDisk : Effect → Bool
  | .read _ => true
  | e => e.changesDisk

namespace Job

variable {α : Type} {others : World.Others} {w : World}

theorem runWith_aside (t : Job α) :
    (aside t).runWith others w =
      ((t.runWith others w).1, (t.runWith others w).2.giveWay others) := by
  rw [aside, runWith_bind]
  rfl

theorem effects_aside (t : Job α) :
    (aside t).effects others w = t.effects others w ++ [.giveWay] := by
  rw [aside, effects_bind]
  rfl

end Job

namespace Almanac

variable (a : Almanac) (k : Kind) (name : String) (others : World.Others) (w : World)

def keep : Except FetchError Bytes → Job (Except FetchError Document)
  | .error e => return .error e
  | .ok body => do
      let page := a.document k name body false
      let _ ← Job.aside (a.cache.put page.key page.sourceName body)
      return .ok page

def follow : Option Bytes → Job (Except FetchError Document)
  | some body => do
      Job.count .hit
      return .ok (a.document k name body true)
  | none => do
      Job.count .miss
      Fetch.fetch a.plan (a.url k name) >>= a.keep k name

theorem fetchDocument_eq :
    a.fetchDocument k name = Job.aside (a.cache.get (keyOf k name)) >>= a.follow k name :=
  rfl

def fetchedPage (r : Except FetchError Bytes) : Except FetchError Document :=
  r.map (a.document k name · false)

/-- The world when the lookup of a request is over and counted. -/
def lookedUp (event : Event) : World :=
  let w := w.giveWay others
  { w with metrics := w.metrics.add event }

variable {a k name others w}

theorem runWith_keep (r : Except FetchError Bytes) :
    ((a.keep k name r).runWith others w).1 = a.fetchedPage k name r := by
  cases r with
  | error e => rfl
  | ok body =>
      rw [keep, Job.runWith_bind]
      rfl

theorem runWith_hit {body : Bytes}
    (h : a.cache.getOn w.disk w.now (keyOf k name) = some body) :
    (a.fetchDocument k name).runWith others w =
      (.ok (a.document k name body true), lookedUp others w .hit) := by
  rw [fetchDocument_eq, Job.runWith_bind, Job.runWith_aside, Cache.runWith_get, h]
  rfl

theorem runWith_miss (h : a.cache.getOn w.disk w.now (keyOf k name) = none) :
    (a.fetchDocument k name).runWith others w =
      (Fetch.fetch a.plan (a.url k name) >>= a.keep k name).runWith others
        (lookedUp others w .miss) := by
  rw [fetchDocument_eq, Job.runWith_bind, Job.runWith_aside, Cache.runWith_get, h]
  rfl

theorem effects_eq :
    (a.fetchDocument k name).effects others w =
      (a.cache.get (keyOf k name)).effects others w ++ .giveWay ::
        (a.follow k name (a.cache.getOn w.disk w.now (keyOf k name))).effects others
          (w.giveWay others) := by
  rw [fetchDocument_eq, Job.effects_bind, Job.effects_aside, Job.runWith_aside,
    Cache.runWith_get, List.append_assoc]
  rfl

/-! ### Which effects there are -/

theorem not_send_of_isCacheWork {e : Effect} (h : e.isCacheWork) : Fetch.isSend e = false := by
  cases e with
  | send => cases h
  | _ => rfl

theorem not_changesDisk_of_isLook {e : Effect} (h : e.isLook) : e.changesDisk = false := by
  cases e with
  | read | now => rfl
  | _ => cases h

theorem not_readsDisk_of_isErrand {url : String} {e : Effect} (h : Fetch.isErrand url e) :
    e.readsDisk = false := by
  cases e with
  | enter | leave | ticks | pause | lastSend | markSend | send | count => rfl
  | _ => cases h

theorem not_changesDisk_of_not_readsDisk {e : Effect} (h : e.readsDisk = false) :
    e.changesDisk = false := by
  cases e with
  | read => cases h
  | _ => exact h

theorem effects_get {e : Effect} (he : e ∈ (a.cache.get (keyOf k name)).effects others w) :
    Fetch.isSend e = false ∧ e.changesDisk = false := by
  have hlook : e.isLook := Job.forall_effects_of_only (a.cache.only_get _) e he
  exact ⟨not_send_of_isCacheWork (Cache.isCacheWork_of_isLook hlook),
    not_changesDisk_of_isLook hlook⟩

theorem only_keep {P : Effect → Prop} (hwork : ∀ e, e.isCacheWork → P e) (hgive : P .giveWay)
    (r : Except FetchError Bytes) : (a.keep k name r).Only P := by
  cases r with
  | error e => trivial
  | ok body =>
      have hput := Job.only_mono (a.cache.only_put (keyOf k name)
        (a.document k name body false).sourceName body) hwork
      exact Job.only_bind (Job.only_aside hgive hput) fun _ => Job.only_pure _

theorem not_send_keep (r : Except FetchError Bytes) :
    ∀ e ∈ (a.keep k name r).effects others w, Fetch.isSend e = false := by
  have hkeep : (a.keep k name r).Only fun e => Fetch.isSend e = false :=
    only_keep (fun _ => not_send_of_isCacheWork) rfl r
  exact Job.forall_effects_of_only hkeep

/-! ### The law of a request -/

abbrev found (a : Almanac) (k : Kind) (name : String) (others : World.Others) (w : World) :
    Option Bytes :=
  ((a.cache.get (keyOf k name)).runWith others w).1

/-- The fetch of a request whose lookup finds nothing: its result and the world behind it. -/
abbrev fetched (a : Almanac) (k : Kind) (name : String) (others : World.Others) (w : World) :
    Except FetchError Bytes × World :=
  (Fetch.fetch a.plan (a.url k name)).runWith others (lookedUp others w .miss)

abbrev fetchEffects (a : Almanac) (k : Kind) (name : String) (others : World.Others) (w : World) :
    List Effect :=
  (Fetch.fetch a.plan (a.url k name)).effects others (lookedUp others w .miss)

/-- How a request goes. What its lookup finds decides whether the page is from the cache. If it is,
nothing is sent and nothing changes on the disk. Otherwise the page is what one fetch comes to, and
only behind that, unless it failed, does anything on the disk change. -/
structure GoesByLookup (a : Almanac) (k : Kind) (name : String) (others : World.Others)
    (w : World) : Prop where
  fromCache_iff :
    (∃ page, ((a.fetchDocument k name).runWith others w).1 = .ok page ∧ page.fromCache) ↔
      (a.found k name others w).isSome
  hit : ∀ body, a.found k name others w = some body →
    ((a.fetchDocument k name).runWith others w).1 = .ok
        { key := keyOf k name, sourceName := String.ofList (Name.normalize name.toList)
          url := a.url k name, body, fromCache := true } ∧
      ∀ e ∈ (a.fetchDocument k name).effects others w,
        Fetch.isSend e = false ∧ e.changesDisk = false
  miss : a.found k name others w = none →
    ((a.fetchDocument k name).runWith others w).1 =
        ((a.fetched k name others w).1.map fun body =>
          { key := keyOf k name, sourceName := String.ofList (Name.normalize name.toList)
            url := a.url k name, body, fromCache := false }) ∧
      ∃ looks stores,
        (a.fetchDocument k name).effects others w =
          looks ++ a.fetchEffects k name others w ++ stores ∧
        (∀ e ∈ looks ++ stores, Fetch.isSend e = false) ∧
        (∀ e ∈ looks ++ a.fetchEffects k name others w, e.changesDisk = false) ∧
        ((∃ e, (a.fetched k name others w).1 = .error e) → stores = [])

theorem quiet_looks : ∀ e ∈ (a.cache.get (keyOf k name)).effects others w ++
    [.giveWay, .count .miss], Fetch.isSend e = false ∧ e.changesDisk = false := by
  intro e he
  rcases List.mem_append.1 he with he | he
  · exact effects_get he
  · simp only [List.mem_cons, List.not_mem_nil, or_false] at he
    rcases he with rfl | rfl <;> exact ⟨rfl, rfl⟩

theorem found_eq (a : Almanac) (k : Kind) (name : String) (others : World.Others) (w : World) :
    a.found k name others w = a.cache.getOn w.disk w.now (keyOf k name) := by
  rw [found, Cache.runWith_get]

theorem effects_miss (h : a.found k name others w = none) :
    (a.fetchDocument k name).effects others w =
      (a.cache.get (keyOf k name)).effects others w ++ [.giveWay, .count .miss] ++
        a.fetchEffects k name others w ++
        (a.keep k name (a.fetched k name others w).1).effects others
          (a.fetched k name others w).2 := by
  rw [found_eq] at h
  have hfollow : (a.follow k name none).effects others (w.giveWay others) = .count .miss ::
      (Fetch.fetch a.plan (a.url k name) >>= a.keep k name).effects others
        (lookedUp others w .miss) := rfl
  rw [effects_eq, h, hfollow, Job.effects_bind]
  simp only [List.append_assoc, List.cons_append, List.nil_append]

theorem goesByLookup (a : Almanac) (k : Kind) (name : String) (others : World.Others) (w : World) :
    a.GoesByLookup k name others w := by
  have hget := a.found_eq k name others w
  refine ⟨?_, fun body hbody => ?_, fun hnone => ?_⟩
  · cases hfound : a.found k name others w with
    | some body =>
        rw [runWith_hit (hget ▸ hfound)]
        exact ⟨fun _ => rfl, fun _ => ⟨_, rfl, rfl⟩⟩
    | none =>
        rw [runWith_miss (hget ▸ hfound), Job.runWith_bind, runWith_keep]
        refine ⟨?_, fun h => by cases h⟩
        rintro ⟨page, hpage, hcached⟩
        rw [fetchedPage] at hpage
        cases hfetched : (a.fetched k name others w).1 with
        | error e =>
            rw [hfetched] at hpage
            cases hpage
        | ok body =>
            rw [hfetched] at hpage
            obtain rfl := Except.ok.inj hpage
            cases hcached
  · have hon := hget ▸ hbody
    have hpage : ((a.fetchDocument k name).runWith others w).1 =
        .ok (a.document k name body true) := by
      rw [runWith_hit hon]
    refine ⟨hpage, fun e he => ?_⟩
    rw [effects_eq, List.mem_append, hon] at he
    rcases he with he | he
    · exact effects_get he
    · rcases List.mem_cons.1 he with rfl | he
      · exact ⟨rfl, rfl⟩
      · obtain rfl := List.mem_singleton.1 he
        exact ⟨rfl, rfl⟩
  · have hpage : ((a.fetchDocument k name).runWith others w).1 =
        a.fetchedPage k name (a.fetched k name others w).1 := by
      rw [runWith_miss (hget ▸ hnone), Job.runWith_bind, runWith_keep]
    refine ⟨hpage, _, _, effects_miss hnone, fun e he => ?_, fun e he => ?_, ?_⟩
    · rcases List.mem_append.1 he with he | he
      · exact (quiet_looks e he).1
      · exact not_send_keep _ e he
    · rcases List.mem_append.1 he with he | he
      · exact (quiet_looks e he).2
      · exact not_changesDisk_of_not_readsDisk (not_readsDisk_of_isErrand
          (Job.forall_effects_of_only (Fetch.only_fetch a.plan (a.url k name)) e he))
    · rintro ⟨e, he⟩
      rw [he]
      rfl

/-! ### Requests and the disk -/

/-- Without an effect that changes it, and with nobody else there, the disk stays as it is. -/
theorem disk_of_effects {α : Type} {t : Job α} {w : World}
    (h : ∀ e ∈ t.effects World.nobody w, e.changesDisk = false) :
    (t.runWith World.nobody w).2.disk = w.disk := by
  induction t generalizing w with
  | done a => rfl
  | step e next ih =>
      obtain ⟨he, hrest⟩ := List.forall_mem_cons.1 h
      have hdisk : (w.perform World.nobody e).2.disk = w.disk := by
        cases e with
        | write | rename | remove | makeFolders => cases he
        | pause length => exact Cache.disk_pass w _
        | _ => rfl
      exact (ih _ hrest).trans hdisk

theorem disk_of_failed {e : FetchError} {w : World} (h : a.found k name World.nobody w = none)
    (he : (a.fetched k name World.nobody w).1 = .error e) :
    ((a.fetchDocument k name).runWith World.nobody w).2.disk = w.disk := by
  obtain ⟨-, looks, stores, heffects, -, hquiet, hnone⟩ := (a.goesByLookup k name _ w).miss h
  refine disk_of_effects fun d hd => hquiet d ?_
  rwa [heffects, hnone ⟨e, he⟩, List.append_nil] at hd

theorem runWith_elsewhere {α : Type} {t : Job α} (h : t.Only fun e => e.readsDisk = false)
    (w : World) (d : Disk) :
    t.runWith World.nobody { w with disk := d } =
      ((t.runWith World.nobody w).1, { (t.runWith World.nobody w).2 with disk := d }) := by
  induction t generalizing w with
  | done a => rfl
  | step e next ih =>
      have hperform : World.perform World.nobody { w with disk := d } e =
          ((w.perform World.nobody e).1, { (w.perform World.nobody e).2 with disk := d }) := by
        cases e with
        | read | write | rename | remove | makeFolders => cases h.1
        | _ => rfl
      rw [Job.runWith, hperform]
      exact ih _ (h.2 _) _

/-- What a fetch comes to does not depend on the disk. -/
theorem fetched_elsewhere (a : Almanac) (k : Kind) (name : String) (w : World) (d : Disk) :
    (a.fetched k name World.nobody { w with disk := d }).1 =
      (a.fetched k name World.nobody w).1 := by
  have honly := Job.only_mono (Fetch.only_fetch a.plan (a.url k name)) fun _ =>
    not_readsDisk_of_isErrand
  have hrun := runWith_elsewhere honly (lookedUp World.nobody w .miss) d
  exact (congrArg Prod.fst hrun :)

end Almanac

end StatAlmanac
