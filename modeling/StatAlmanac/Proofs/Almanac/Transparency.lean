import StatAlmanac.Proofs.Almanac.Lasting

/-!
What a cache makes a difference to. As long as no lifetime ends, a request is
answered as it would be without a cache, or with the body of the first request
before it that had the same key and came to a page. The key of a name is in lower
case and its address is not, so these can be two different pages.
-/

namespace StatAlmanac

namespace Almanac

variable {a : Almanac} {k : Kind} {name key : String} {clock : Stamp → Prop}
  {others : World.Others} {w : World} {body : Bytes} {f : String → Outcome} {v v' : View}
  {kept : String → Option Bytes}

def withoutCache (a : Almanac) : Almanac := { a with cache := { a.cache with isEnabled := false } }

def served (a : Almanac) (f : String → Outcome) (k : Kind) (name : String) :
    Except FetchError Bytes :=
  Fetch.ended a.plan (a.url k name) (f (a.url k name))

/-- Without a cache each request comes to what the other side serves. -/
theorem withoutCache_served (a : Almanac) (k : Kind) (name : String)
    (hf : ∀ n url, w.remote n url = f url) :
    ((a.withoutCache.fetchDocument k name).runWith World.nobody w).1.map Document.body =
      a.served f k name := by
  have hnone : a.withoutCache.found k name World.nobody w = none := by
    rw [found_eq]
    rfl
  have hsmooth : (Fetch.fetch a.plan (a.url k name)).isSmooth World.nobody
      (lookedUp World.nobody w .miss) :=
    Job.isSmooth_of_only (fun _ r => Fetch.isGranted_of_isErrand r) (Fetch.only_fetch _ _) _
  obtain ⟨-, -, -, n, hfetched⟩ :=
    Fetch.ensures_fetch (World.idle_nobody fun _ => True) trivial hsmooth
  have hserved : (a.withoutCache.fetched k name World.nobody w).1 = a.served f k name := by
    rw [served, ← hf n]
    exact hfetched
  rw [((a.withoutCache.goesByLookup k name _ w).miss hnone).1, hserved]
  cases a.served f k name with
  | error e => rfl
  | ok body => rfl

def Call.bodyUnder (key : String) (serve : Kind → String → Except FetchError Bytes) :
    Call → Option Bytes
  | .page k name => if keyOf k name = key then (serve k name).toOption else none
  | .sweep => none

/-- What shows of the cache is what was kept, since some time on the clock. -/
structure Keeps (a : Almanac) (clock : Stamp → Prop) (kept : String → Option Bytes) (v : View) :
    Prop where
  missing : ∀ key, kept key = none → v.index.find? key = none
  shown : ∀ key body, kept key = some body → ∃ r, clock r.storedAt ∧ a.Shows key r body v

/-- No lifetime ends while the clock goes on. -/
def NeverEnds (a : Almanac) (clock : Stamp → Prop) : Prop :=
  ∀ now since, clock now → clock since → now.since since < a.cache.lifetime.totalNanos

theorem NeverEnds.isFresh (h : a.NeverEnds clock) {r : Record} {now : Stamp} (hr : clock r.storedAt)
    (hnow : clock now) : (a.cache.toEntry key r).isFresh now :=
  Entry.isFresh_iff.2 (h now r.storedAt hnow hr)

theorem Keeps.getOn_eq (h : a.Keeps clock kept (a.cache.view w.disk)) (hc : a.cache.isEnabled)
    (hends : a.NeverEnds clock) (hw : clock w.now) (hkey : Cache.isKey key) :
    a.cache.getOn w.disk w.now key = kept key := by
  cases hkept : kept key with
  | none =>
      rw [Cache.getOn_eq hc hkey, h.missing key hkept]
      rfl
  | some body =>
      obtain ⟨r, hr, hshows⟩ := h.shown key body hkept
      exact hshows.getOn_eq hc hkey (hends.isFresh hr hw)

theorem Keeps.congr {kept' : String → Option Bytes} (h : a.Keeps clock kept v)
    (hkept : ∀ key, kept' key = kept key) : a.Keeps clock kept' v :=
  funext hkept ▸ h

theorem Keeps.put {source : String} {now : Stamp} (h : a.Keeps clock kept v) (hnow : clock now) :
    a.Keeps clock (fun other => if other = key then some body else kept other)
      (v.put key source now body) := by
  refine ⟨fun other hother => ?_, fun other document hother => ?_⟩
  · split at hother
    · cases hother
    · rename_i hne
      rw [View.find?_index_put, if_neg hne]
      exact h.missing other hother
  · split at hother
    · rename_i heq
      obtain rfl := Option.some.inj hother
      exact heq ▸ ⟨⟨source, now, body.length⟩, hnow, .put v⟩
    · rename_i hne
      obtain ⟨r, hr, hshows⟩ := h.shown other document hother
      exact ⟨r, hr, hshows.put_of_ne hne⟩

theorem Keeps.sweep {now : Stamp} (h : a.Keeps clock kept v) (hends : a.NeverEnds clock)
    (hnow : clock now) : a.Keeps clock kept (v.sweep a.cache now) := by
  refine ⟨fun key hkey => ?_, fun key body hkey => ?_⟩
  · rw [View.find?_index_sweep, h.missing key hkey]
    rfl
  · obtain ⟨r, hr, hshows⟩ := h.shown key body hkey
    exact ⟨r, hr, hshows.sweep (hends.isFresh hr hnow)⟩

/-- A call keeps what was kept, and what it is the first to hand out under a key. -/
theorem Keeps.changes {q : Call} (h : a.Keeps clock kept (a.cache.view w.disk))
    (hc : a.cache.isEnabled) (hends : a.NeverEnds clock) (hw : clock w.now)
    (hf : ∀ n url, w.remote n url = f url)
    (hchanges : a.Changes clock w (a.cache.view w.disk) q v') :
    a.Keeps clock (fun key => (kept key).or (q.bodyUnder key (a.served f))) v' := by
  cases hchanges with
  | @hit k name body hfound =>
      -- something is kept under this key already
      rw [h.getOn_eq hc hends hw (isKey_keyOf k name)] at hfound
      refine h.congr fun key => ?_
      by_cases hkey : keyOf k name = key
      · rw [← hkey, hfound, Option.some_or]
      · simp [Call.bodyUnder, hkey]
  | @failed k name n e hnone hended =>
      rw [hf] at hended
      have hserved : a.served f k name = .error e := hended
      refine h.congr fun key => ?_
      simp [Call.bodyUnder, hserved, Except.toOption]
  | @put k name source n body now hnone hended hnow =>
      rw [h.getOn_eq hc hends hw (isKey_keyOf k name)] at hnone
      rw [hf] at hended
      have hserved : a.served f k name = .ok body := hended
      refine (h.put hnow).congr fun key => ?_
      by_cases hkey : key = keyOf k name
      · simp [Call.bodyUnder, hserved, Except.toOption, hkey, hnone]
      · simp [Call.bodyUnder, hkey, Ne.symm hkey]
  | leave => exact h.congr fun key => Option.or_none
  | sweep => exact (h.sweep hends hw).congr fun key => Option.or_none

/-! ### Runs -/

def firstBody (a : Almanac) (f : String → Outcome) (calls : List (Stamp × Call)) (key : String) :
    Option Bytes :=
  calls.findSome? fun q => q.2.bodyUnder key (a.served f)

theorem Keeps.after (hidle : World.Idle clock others) (hc : a.cache.isEnabled)
    (hends : a.NeverEnds clock) {remote : Nat → String → Outcome} (hbody : IsMeasured remote)
    (hf : ∀ n url, remote n url = f url) {calls : List (Stamp × Call)}
    (hcalls : ∀ q ∈ calls, clock q.1) (hw : a.IsSound remote w)
    (h : a.Keeps clock kept (a.cache.view w.disk)) (hsmooth : a.goesSmoothly others w calls) :
    a.IsSound remote (a.after others w calls) ∧
      a.Keeps clock (fun key => (kept key).or (a.firstBody f calls key))
        (a.cache.view (a.after others w calls).disk) := by
  induction calls generalizing w kept with
  | nil => exact ⟨hw, h.congr fun key => Option.or_none⟩
  | cons first rest ih =>
      obtain ⟨now, q⟩ := first
      rw [goesSmoothly, Bool.and_eq_true] at hsmooth
      have hnow : clock now := hcalls _ List.mem_cons_self
      obtain ⟨hchanges, hw'⟩ := ensures_job (w := { w with now }) hidle hc hbody
        ⟨hw.placed, hw.keys, hw.remote⟩ hnow q hsmooth.1
      have hkeeps := Keeps.changes (w := { w with now }) h hc hends hnow
        (fun n url => (congrFun (congrFun hw.remote n) url).trans (hf n url)) hchanges
      obtain ⟨hsound, hrest⟩ := ih (fun q hq => hcalls q (List.mem_cons_of_mem _ hq)) hw' hkeeps
        hsmooth.2
      refine ⟨hsound, hrest.congr fun key => ?_⟩
      rw [Option.or_assoc]
      refine congrArg (kept key).or ?_
      rw [firstBody, List.findSome?_cons]
      cases q.bodyUnder key (a.served f) <;> rfl

/-- A request with what was kept behind it: it hands that out, or else what is served. -/
theorem Keeps.request (hidle : World.Idle clock others) (hc : a.cache.isEnabled)
    (hends : a.NeverEnds clock) {remote : Nat → String → Outcome} (hbody : IsMeasured remote)
    (hf : ∀ n url, remote n url = f url) (hw : a.IsSound remote w) (hnow : clock w.now)
    (h : a.Keeps clock kept (a.cache.view w.disk)) (k : Kind) (name : String) :
    (a.fetchDocument k name).Ensures others w fun r _ =>
      r.map Document.body = (kept (keyOf k name)).elim (a.served f k name) .ok := by
  have hmeasured : IsMeasured w.remote := hw.remote ▸ hbody
  have hserved (n : Nat) : Fetch.ended a.plan (a.url k name) (w.remote n (a.url k name)) =
      a.served f k name := by
    rw [hw.remote, hf]
    rfl
  refine (ensures_request hidle hnow hc hmeasured
    fun d' hmake => (hw.placed.makeFolders hmake).2).mono ?_
  rintro r w' ⟨hrequested, -, -⟩
  generalize w'.disk = d at hrequested
  have hkept := h.getOn_eq hc hends hnow (isKey_keyOf k name)
  cases hrequested with
  | hit hfound =>
      rw [← hkept, hfound]
      rfl
  | failed hnone hended =>
      rw [← hkept, hnone, ← hserved, hended]
      rfl
  | stored hnone hended =>
      rw [← hkept, hnone, ← hserved, hended]
      rfl

/-- A cache makes a difference only to names that share a key. On a healthy disk, with a cache that
starts empty, another side that answers by the address alone and no lifetime ending, a request is
answered, behind any calls, with the body that the first of them to come to a page under its key
hands out without a cache, and if there is none as it is itself without a cache. So it is answered
as without a cache if the names under its key share its address. -/
theorem fetchDocument_transparent (hidle : World.Idle clock others) (hc : a.cache.isEnabled)
    (hends : a.NeverEnds clock) (hplaced : a.cache.Placed w.disk)
    (hempty : a.cache.indexOn w.disk = Table.empty) (hbody : IsMeasured w.remote)
    (hf : ∀ n url, w.remote n url = f url) {calls : List (Stamp × Call)}
    (hcalls : ∀ q ∈ calls, clock q.1) (hsmooth : a.goesSmoothly others w calls) {now : Stamp}
    (hnow : clock now)
    (hlast : (a.fetchDocument k name).isSmooth others { a.after others w calls with now })
    {w' : World} (hw' : ∀ n url, w'.remote n url = f url) :
    let plain k name :=
      ((a.withoutCache.fetchDocument k name).runWith World.nobody w').1.map Document.body
    let result := ((a.fetchDocument k name).runWith others { a.after others w calls with now }).1
    result.map Document.body =
        (calls.findSome? fun q => q.2.bodyUnder (keyOf k name) plain).elim (plain k name) .ok ∧
      ((∀ q ∈ calls, ∀ k' name', q.2 = .page k' name' → keyOf k' name' = keyOf k name →
          a.url k' name' = a.url k name) →
        result.map Document.body = plain k name) := by
  intro plain result
  have hplain : plain = a.served f := by
    funext k name
    exact a.withoutCache_served k name hw'
  have hstart : a.Keeps clock (fun _ => none) (a.cache.view w.disk) := by
    refine ⟨fun key _ => ?_, fun key body hnone => by cases hnone⟩
    show (a.cache.indexOn w.disk).find? key = none
    rw [hempty, Table.find?_empty]
  have hsound : a.IsSound w.remote w := by
    refine ⟨hplaced, fun key r hr => ?_, rfl⟩
    rw [hstart.missing key rfl] at hr
    cases hr
  obtain ⟨hsound', hkeeps⟩ := hstart.after hidle hc hends hbody hf hcalls hsound hsmooth
  have hresult : result.map Document.body =
      (a.firstBody f calls (keyOf k name)).elim (a.served f k name) .ok :=
    Keeps.request (w := { a.after others w calls with now }) hidle hc hends hbody hf
      ⟨hsound'.placed, hsound'.keys, hsound'.remote⟩ hnow hkeeps k name hlast
  rw [hplain]
  refine ⟨hresult, fun hshared => ?_⟩
  rw [hresult]
  cases hfirst : a.firstBody f calls (keyOf k name) with
  | none => rfl
  | some body =>
      obtain ⟨⟨time, q⟩, hq, hbodyUnder⟩ := List.exists_of_findSome?_eq_some hfirst
      cases q with
      | sweep => cases hbodyUnder
      | page k' name' =>
          simp only [Call.bodyUnder, Option.ite_none_right_eq_some] at hbodyUnder
          obtain ⟨hkey, hserved⟩ := hbodyUnder
          have haddress := hshared _ hq k' name' rfl hkey
          have hsame : a.served f k name = a.served f k' name' := by
            rw [served, served, haddress]
          rw [hsame, Disk.toOption_eq_some.1 hserved]
          rfl

/-- Another side that has different pages for two spellings of a name. -/
def spellingsWorld : World :=
  { disk := .empty, now := default
    remote := fun _ url =>
      .ok ⟨200, if url = "https://wiki.test/wiki/LeBlanc/LoL" then [65] else [66]⟩
    reading := fun _ => .zero }

/-- One spelling is asked for, a sweep goes by, and then the other is asked for. -/
theorem fetchDocument_transparent_evening :
    let a := sampleAlmanac
    let evening : Stamp := ⟨0, 68400, 0, by decide, by decide, by decide, by decide, by decide⟩
    let calls := [(default, .page .champion "LeBlanc"), (evening, .sweep)]
    let plain k name :=
      ((a.withoutCache.fetchDocument k name).runWith World.nobody spellingsWorld).1.map
        Document.body
    let result := ((a.fetchDocument .champion "Leblanc").runWith World.nobody
      { a.after World.nobody spellingsWorld calls with now := evening }).1
    result.map Document.body =
      (calls.findSome? fun q => q.2.bodyUnder (keyOf .champion "Leblanc") plain).elim
        (plain .champion "Leblanc") .ok := by
  intro a evening calls
  have hidle : World.Idle (fun now => now = default ∨ now = evening) World.nobody :=
    World.idle_nobody _
  have hends : a.NeverEnds fun now => now = default ∨ now = evening := by
    rintro now since (rfl | rfl) (rfl | rfl) <;> decide
  have hbare : ({ folder := "cache" } : Cache).StartsBare .empty := by
    refine Cache.startsBare_of_missing ?_ (by decide) ?_
    · intro name p n hn
      cases hn
    · intro p hp
      cases hp
  have hplaced : a.cache.Placed spellingsWorld.disk := .inl hbare
  have hview : a.cache.view spellingsWorld.disk = .empty := hbare.view
  have hempty : a.cache.indexOn spellingsWorld.disk = Table.empty := congrArg View.index hview
  have hbody : IsMeasured spellingsWorld.remote := by
    intro n url response h
    obtain rfl := Except.ok.inj h
    show (if url = _ then [65] else [66] : Bytes).length < bound64
    split <;> decide
  have hcalls : ∀ q ∈ calls, q.1 = default ∨ q.1 = evening := by decide
  have hsmooth : a.goesSmoothly World.nobody spellingsWorld calls ∧
      (a.fetchDocument .champion "Leblanc").isSmooth World.nobody
        { a.after World.nobody spellingsWorld calls with now := evening } := by decide +kernel
  exact (fetchDocument_transparent hidle rfl hends hplaced hempty hbody (fun _ _ => rfl) hcalls
    hsmooth.1 (.inr rfl) hsmooth.2 fun _ _ => rfl).1

/-- The page handed out for the address of the second spelling is that of the first. -/
theorem fetchDocument_spellings :
    let a := sampleAlmanac
    let first := (a.fetchDocument .champion "LeBlanc").runWith World.nobody spellingsWorld
    let second := (a.fetchDocument .champion "Leblanc").runWith World.nobody first.2
    let plain :=
      (a.withoutCache.fetchDocument .champion "Leblanc").runWith World.nobody spellingsWorld
    (a.fetchDocument .champion "LeBlanc").isSmooth World.nobody spellingsWorld ∧
      (a.fetchDocument .champion "Leblanc").isSmooth World.nobody first.2 ∧
      second.1.toOption.map (fun page => (page.url, page.body)) =
        some ("https://wiki.test/wiki/Leblanc/LoL", [65]) ∧
      plain.1.toOption.map (fun page => (page.url, page.body)) =
        some ("https://wiki.test/wiki/Leblanc/LoL", [66]) := by
  decide +kernel

end Almanac

end StatAlmanac
