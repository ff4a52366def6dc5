import StatAlmanac.Proofs.Almanac.Requests

/-!
A page that has been fetched and stored stays. Until its lifetime is over each
request for it, however the name is written, is answered with the body that was
stored and without a send, whatever requests and sweeps come in between. All of
this takes an index that lists keys only: a sweep that finds another name in it
may remove the document of the page.
-/

namespace StatAlmanac

namespace Almanac

variable {a : Almanac} {k : Kind} {name : String} {clock : Stamp → Prop} {others : World.Others}
  {w : World} {key : String} {r : Record} {body : Bytes} {remote : Nat → String → Outcome}

/-- The cache shows a document and its record. -/
structure Shows (a : Almanac) (key : String) (r : Record) (body : Bytes) (v : View) : Prop where
  record : v.index.find? key = some r
  document : v.documents key = some body

theorem Shows.put {source : String} {now : Stamp} (v : View) :
    a.Shows key ⟨source, now, body.length⟩ body (v.put key source now body) := by
  refine ⟨?_, ?_⟩
  · rw [View.find?_index_put, if_pos rfl]
  · rw [View.documents_put, if_pos rfl]

theorem Shows.getOn_eq {d : Disk} {now : Stamp} (h : a.Shows key r body (a.cache.view d))
    (hc : a.cache.isEnabled) (hkey : Cache.isKey key)
    (hfresh : (a.cache.toEntry key r).isFresh now) : a.cache.getOn d now key = some body := by
  rw [Cache.getOn_eq hc hkey, h.record, Option.filter_some, if_pos hfresh]
  exact h.document

theorem Shows.put_of_ne {other source : String} {now : Stamp} {document : Bytes} {v : View}
    (h : a.Shows key r body v) (hne : key ≠ other) :
    a.Shows key r body (v.put other source now document) := by
  refine ⟨?_, ?_⟩
  · rw [View.find?_index_put, if_neg hne]
    exact h.record
  · rw [View.documents_put, if_neg hne]
    exact h.document

theorem Shows.sweep {now : Stamp} {v : View} (h : a.Shows key r body v)
    (hfresh : (a.cache.toEntry key r).isFresh now) :
    a.Shows key r body (v.sweep a.cache now) := by
  refine ⟨?_, ?_⟩
  · rw [View.find?_index_sweep, h.record, Option.filter_some, if_pos hfresh]
  · exact (if_neg (View.not_mem_staleKeys h.record hfresh)).trans h.document

/-- Neither a request nor a sweep takes away what is fresh. -/
theorem Shows.changes {v v' : View} {q : Call} (h : a.Shows key r body v)
    (hchanges : a.Changes clock w v q v') (hfound : a.cache.getOn w.disk w.now key ≠ none)
    (hfresh : (a.cache.toEntry key r).isFresh w.now) : a.Shows key r body v' := by
  cases hchanges with
  | hit | failed | leave => exact h
  | put hnone => exact h.put_of_ne fun heq => hfound (heq ▸ hnone)
  | sweep => exact h.sweep hfresh

theorem Shows.after (hidle : World.Idle (fun _ => True) others) (hc : a.cache.isEnabled)
    (hbody : IsMeasured remote) (hkey : Cache.isKey key) (hw : a.IsSound remote w)
    (h : a.Shows key r body (a.cache.view w.disk)) {calls : List (Stamp × Call)}
    (hfresh : ∀ q ∈ calls, (a.cache.toEntry key r).isFresh q.1)
    (hsmooth : a.goesSmoothly others w calls) :
    a.Shows key r body (a.cache.view (a.after others w calls).disk) := by
  refine (after_invariant
    (I := fun w => a.IsSound remote w ∧ a.Shows key r body (a.cache.view w.disk))
    ?_ ⟨hw, h⟩ hsmooth).2
  rintro w ⟨hw, h⟩ now q hq
  have hnow := hfresh _ hq
  refine (ensures_job (w := { w with now }) hidle hc hbody
    ⟨hw.placed, hw.keys, hw.remote⟩ trivial q).mono ?_
  rintro - w' ⟨hchanges, hw'⟩
  exact ⟨hw', h.changes hchanges (by simp [h.getOn_eq hc hkey hnow]) hnow⟩

/-- A page that was fetched without a fault of the disk is stored, and then shows. -/
theorem shows_of_fetched (hidle : World.Idle (fun _ => True) others) (hc : a.cache.isEnabled)
    (hbody : IsMeasured w.remote) {page : Document}
    (hsmooth : (a.fetchDocument k name).isSmooth others w)
    (hpage : ((a.fetchDocument k name).runWith others w).1 = .ok page)
    (hmiss : page.fromCache = false) :
    let w₁ := ((a.fetchDocument k name).runWith others w).2
    a.cache.Placed w₁.disk ∧ w₁.remote = w.remote ∧
      ∃ r, a.Shows (keyOf k name) r page.body (a.cache.view w₁.disk) := by
  have hopened : ∀ d', w.disk.makeFolders a.cache.folder = (.ok (), d') →
      a.cache.view d' = a.cache.view (w.disk.makeFolders a.cache.folder).2 := by
    intro d' hmake
    rw [hmake]
  obtain ⟨hrequested, -, hremote⟩ :=
    ensures_request (v := a.cache.view (w.disk.makeFolders a.cache.folder).2) hidle trivial hc hbody
      hopened hsmooth
  intro w₁
  rw [hpage] at hrequested
  generalize hd : w₁.disk = d
  replace hd : ((a.fetchDocument k name).runWith others w).2.disk = d := hd
  rw [hd] at hrequested
  cases hrequested with
  | hit => cases hmiss
  | @stored n body now source d hnone hended hnow hplaced hview =>
      refine ⟨hplaced, hremote, ⟨source, now, body.length⟩, ?_⟩
      rw [hview]
      exact .put _

/-- The law of requests. In every world and among any others, a request goes by what its lookup
finds. Left alone, it comes to the same on any two disks on which the lookup finds nothing, and one
that fails leaves the disk as it is. A page that was fetched and stored without a fault of the disk
has an entry, and as long as that is fresh, every later request for the same kind and the same name
in lower case is answered with the stored body and without a send, whatever is requested and swept
in between, if the index behind the store lists keys only. -/
theorem fetchDocument_law (a : Almanac) :
    (∀ k name others w, a.GoesByLookup k name others w) ∧
    (∀ k name w d, a.found k name World.nobody w = none →
      a.found k name World.nobody { w with disk := d } = none →
      ((a.fetchDocument k name).runWith World.nobody { w with disk := d }).1 =
        ((a.fetchDocument k name).runWith World.nobody w).1) ∧
    (∀ k name w e, ((a.fetchDocument k name).runWith World.nobody w).1 = .error e →
      ((a.fetchDocument k name).runWith World.nobody w).2.disk = w.disk) ∧
    ∀ k name others w page, World.Idle (fun _ => True) others → a.cache.isEnabled →
      IsMeasured w.remote → (a.fetchDocument k name).isSmooth others w →
      ((a.fetchDocument k name).runWith others w).1 = .ok page → page.fromCache = false →
      let w₁ := ((a.fetchDocument k name).runWith others w).2
      (∀ key r, (a.cache.indexOn w₁.disk).find? key = some r → Cache.isKey key) →
      ∃ e, a.cache.entryOn w₁.disk (keyOf k name) = some e ∧
        ∀ calls now other, (∀ q ∈ calls, e.isFresh q.1) → a.goesSmoothly others w₁ calls →
          e.isFresh now →
          Text.lowerText (Name.normalize other.toList) =
            Text.lowerText (Name.normalize name.toList) →
          let w₂ := { a.after others w₁ calls with now }
          ((a.fetchDocument k other).runWith others w₂).1 = .ok
              { key := keyOf k name, sourceName := String.ofList (Name.normalize other.toList)
                url := a.url k other, body := page.body, fromCache := true } ∧
            ∀ e ∈ (a.fetchDocument k other).effects others w₂, Fetch.isSend e = false := by
  refine ⟨goesByLookup a, fun k name w d h hd => ?_, fun k name w e he => ?_, ?_⟩
  · rw [((a.goesByLookup k name _ w).miss h).1, ((a.goesByLookup k name _ _).miss hd).1,
      fetched_elsewhere]
  · cases hfound : a.found k name World.nobody w with
    | some body =>
        rw [((a.goesByLookup k name _ w).hit body hfound).1] at he
        cases he
    | none =>
        rw [((a.goesByLookup k name _ w).miss hfound).1] at he
        cases hfetched : (a.fetched k name World.nobody w).1 with
        | error e => exact disk_of_failed hfound hfetched
        | ok body =>
            rw [hfetched] at he
            cases he
  · intro k name others w page hidle hc hbody hsmooth hpage hmiss w₁ hkeys
    obtain ⟨hplaced, hremote, r, hshows⟩ := shows_of_fetched hidle hc hbody hsmooth hpage hmiss
    refine ⟨a.cache.toEntry (keyOf k name) r, ?_,
      fun calls now other hfresh hgoes hnow hother => ?_⟩
    · rw [Cache.entryOn, if_pos hc]
      exact congrArg _ hshows.record
    · intro w₂
      have hlast := hshows.after hidle hc (hremote ▸ hbody) (isKey_keyOf k name)
        ⟨hplaced, hkeys, rfl⟩ hfresh hgoes
      have hfound : a.found k other others w₂ = some page.body := by
        rw [found_eq, keyOf_congr hother]
        exact hlast.getOn_eq hc (isKey_keyOf k name) hnow
      obtain ⟨hresult, heffects⟩ := (a.goesByLookup k other others w₂).hit _ hfound
      rw [keyOf_congr hother] at hresult
      exact ⟨hresult, fun e he => (heffects e he).1⟩

def sampleAlmanac : Almanac :=
  ⟨"https://wiki.test/wiki", { interval := .zero }, { folder := "cache" }⟩

/-- A page is fetched, another one is, a sweep goes by, and some hours later the page is still
there. -/
theorem fetchDocument_law_day :
    let a := sampleAlmanac
    let w : World :=
      { disk := .empty, now := default, remote := fun _ _ => .ok ⟨200, [60]⟩,
        reading := fun _ => .zero }
    let evening : Stamp := ⟨0, 68400, 0, by decide, by decide, by decide, by decide, by decide⟩
    let calls := [(default, .page .item "bow"), (evening, .sweep)]
    let w₁ := ((a.fetchDocument .champion "Lux").runWith World.nobody w).2
    let w₂ := { a.after World.nobody w₁ calls with now := evening }
    ((a.fetchDocument .champion " LUX").runWith World.nobody w₂).1 =
        .ok ⟨"champion_lux", "LUX", "https://wiki.test/wiki/LUX/LoL", [60], true⟩ ∧
      ∀ e ∈ (a.fetchDocument .champion " LUX").effects World.nobody w₂, Fetch.isSend e = false := by
  intro a w evening calls w₁ w₂
  have hmeasured : IsMeasured w.remote := by
    rintro n url response ⟨⟩
    decide
  have hruns : ((a.fetchDocument .champion "Lux").runWith World.nobody w).1.toOption =
        some (a.document .champion "Lux" [60] false) ∧
      (a.fetchDocument .champion "Lux").isSmooth World.nobody w ∧
      (∀ e ∈ (a.cache.indexOn w₁.disk).entries, Cache.isKey e.1) ∧
      a.cache.entryOn w₁.disk (keyOf .champion "Lux") =
        some ⟨"champion_lux", "Lux", default, 1, .ofSeconds 86400⟩ ∧
      a.goesSmoothly World.nobody w₁ calls := by decide +kernel
  obtain ⟨hpage, hsmooth, hentries, hentry, hgoes⟩ := hruns
  have hkeys : ∀ key r, (a.cache.indexOn w₁.disk).find? key = some r → Cache.isKey key :=
    fun key r hr => hentries _ (((a.cache.indexOn w₁.disk).mem_entries_iff key r).2 hr)
  obtain ⟨e, he, hlast⟩ := (fetchDocument_law a).2.2.2 .champion "Lux" World.nobody w _
    (World.idle_nobody _) rfl hmeasured hsmooth (Disk.toOption_eq_some.1 hpage) rfl hkeys
  obtain rfl := Option.some.inj (he.symm.trans hentry)
  exact hlast calls evening " LUX" (by decide) hgoes (by decide) (by decide +kernel)

/-- The folder of a cache whose index lists a stale name that leads to the document of a key. -/
def strayWorld : World :=
  let i : Index := Table.empty.insert "./champion_lux" ⟨"Lux", default, 1⟩
  { disk := ⟨[(["cache".toList], .folder),
      ([Cache.indexName.toList, "cache".toList], .file i.write)]⟩
    now := ⟨1, 1, 1, by decide, by decide, by decide, by decide, by decide⟩
    remote := scripted [.ok ⟨200, [65]⟩] (.ok ⟨200, [66]⟩), reading := fun _ => .zero }

/-- A sweep removes a page that is fresh, and the next request fetches it anew. -/
theorem fetchDocument_stray :
    let a := sampleAlmanac
    let first := (a.fetchDocument .champion "Lux").runWith World.nobody strayWorld
    let swept := a.cache.sweep.runWith World.nobody first.2
    let second := (a.fetchDocument .champion "Lux").runWith World.nobody swept.2
    first.1.toOption.map (fun page => (page.body, page.fromCache)) = some ([65], false) ∧
      (a.fetchDocument .champion "Lux").isSmooth World.nobody strayWorld ∧
      a.cache.isFreshOn first.2.disk first.2.now (keyOf .champion "Lux") ∧
      a.cache.isFreshOn swept.2.disk swept.2.now (keyOf .champion "Lux") ∧
      a.cache.sweep.isSmooth World.nobody first.2 ∧ swept.1 = 1 ∧
      second.1.toOption.map (fun page => (page.body, page.fromCache)) = some ([66], false) := by
  decide +kernel

end Almanac

end StatAlmanac
