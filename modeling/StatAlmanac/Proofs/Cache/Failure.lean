import StatAlmanac.Proofs.Cache.Lookups

/-!
A `put` that fails. It stops at the step that fails and takes nothing back, so
what it leaves is what the steps before that one did: a file beside its place, if
it is the move to its place that fails, and the new document once this has been
moved. The index is moved last and is never changed by a `put` that fails.
-/

namespace StatAlmanac

inductive PutStep where
  | checkKey
  | makeFolder
  | writeDocument
  | moveDocument
  | writeIndex
  | moveIndex
  deriving DecidableEq, Repr

namespace PutStep

def error (c : Cache) (key : String) : PutStep → CacheError
  | .checkKey => .invalidKey key
  | .makeFolder => .disk c.folder
  | .writeDocument => .disk (Cache.temporaryPath (c.documentPath key))
  | .moveDocument => .disk (c.documentPath key)
  | .writeIndex => .disk (Cache.temporaryPath c.indexPath)
  | .moveIndex => .disk c.indexPath

/-- The document is in its place when the step is taken. -/
def hasStored : PutStep → Bool
  | .checkKey | .makeFolder | .writeDocument | .moveDocument => false
  | .writeIndex | .moveIndex => true

/-- The path of the file that the step leaves if it fails:
one that it could not move to its place. -/
def left? (c : Cache) (key : String) : PutStep → Option String
  | .moveDocument => some (Cache.temporaryPath (c.documentPath key))
  | .moveIndex => some (Cache.temporaryPath c.indexPath)
  | .checkKey | .makeFolder | .writeDocument | .writeIndex => none

end PutStep

namespace Cache

variable {c : Cache} {key name path : String} {d d₁ d' : Disk} {p q : Place} {now : Stamp}
  {content document : Bytes} {stored : Bool} {others : World.Others} {w : World} {e : CacheError}

/-! ### How far a run gets -/

/-- What writing a file comes to: the file is not written, or not moved to its place,
or replaced. -/
inductive Replaces (path : String) (content : Bytes) (d : Disk) :
    Except CacheError Unit → Disk → Prop where
  | notWritten : Replaces path content d (.error (.disk (temporaryPath path))) d
  | notMoved {d₁ : Disk} (written : d.write (temporaryPath path) content = .ok d₁) :
      Replaces path content d (.error (.disk path)) d₁
  | moved {d₁ d₂ : Disk} (written : d.write (temporaryPath path) content = .ok d₁)
      (moved : d₁.rename (temporaryPath path) path = .ok d₂) :
      Replaces path content d (.ok ()) d₂

theorem yields_writeFile (path : String) (content : Bytes) (w : World) :
    (writeFile path content).Yields others w fun r w' =>
      Replaces path content w.disk r w'.disk := by
  refine .step (e := .write (temporaryPath path) content) ?_
  simp only [World.perform]
  cases hwritten : w.disk.write (temporaryPath path) content with
  | error e => exact .notWritten
  | ok d₁ =>
      refine .step (e := .rename (temporaryPath path) path) ?_
      simp only [World.perform, World.change]
      cases hmoved : d₁.rename (temporaryPath path) path with
      | error e => exact .notMoved hwritten
      | ok d₂ => exact .moved hwritten hmoved

theorem yields_index (c : Cache) (w : World) :
    c.index.Yields others w fun _ w' => w' = w := by
  rw [Job.Yields, runWith_index]

def opened (c : Cache) (d : Disk) : Disk := (d.makeFolders c.folder).2

/-- What is on the disk when a `put` fails at a step. -/
inductive FailsAt (c : Cache) (key : String) (document : Bytes) (d : Disk) :
    PutStep → Disk → Prop where
  | checkKey : FailsAt c key document d .checkKey d
  | makeFolder : FailsAt c key document d .makeFolder (c.opened d)
  | writeDocument : FailsAt c key document d .writeDocument (c.opened d)
  | moveDocument {d' : Disk}
      (written : (c.opened d).write (temporaryPath (c.documentPath key)) document = .ok d') :
      FailsAt c key document d .moveDocument d'
  | writeIndex {d' : Disk}
      (stored : Replaces (c.documentPath key) document (c.opened d) (.ok ()) d') :
      FailsAt c key document d .writeIndex d'
  | moveIndex {d₁ d' : Disk} {content : Bytes}
      (stored : Replaces (c.documentPath key) document (c.opened d) (.ok ()) d₁)
      (written : d₁.write (temporaryPath c.indexPath) content = .ok d') :
      FailsAt c key document d .moveIndex d'

def EndsAt (c : Cache) (key : String) (document : Bytes) (d : Disk) (r : Except CacheError Unit)
    (w : World) : Prop :=
  ∀ e, r = .error e →
    ∃ step : PutStep, e = step.error c key ∧ c.FailsAt key document d step w.disk

theorem endsAt_save {record : Record}
    (hstored : Replaces (c.documentPath key) document (c.opened d) (.ok ()) w.disk) :
    (do c.save ((← c.index).insert key record)).Yields others w (c.EndsAt key document d) := by
  refine (yields_index c w).bind ?_
  rintro i w rfl
  refine (yields_writeFile c.indexPath _ w).mono fun r w' hindex => ?_
  generalize hd' : w'.disk = d' at hindex
  cases hindex with
  | notWritten =>
      rintro e ⟨⟩
      refine ⟨.writeIndex, rfl, ?_⟩
      rw [hd']
      exact .writeIndex hstored
  | notMoved hwritten =>
      rintro e ⟨⟩
      refine ⟨.moveIndex, rfl, ?_⟩
      rw [hd']
      exact .moveIndex hstored hwritten
  | moved => exact nofun

theorem endsAt_put (c : Cache) (key name : String) (document : Bytes) (w : World) :
    (c.put key name document).Yields others w (c.EndsAt key document w.disk) := by
  refine .step (e := .now) ?_
  cases c.isEnabled with
  | false => exact nofun
  | true =>
      by_cases hkey : isKey key
      · rw [hkey]
        refine .inside (.step (e := .makeFolders c.folder) ?_)
        simp only [World.perform, World.makeFolders]
        cases hmade : (w.disk.makeFolders c.folder).1 with
        | error e =>
            rintro e ⟨⟩
            exact ⟨.makeFolder, rfl, .makeFolder⟩
        | ok u =>
            refine (yields_writeFile (c.documentPath key) document _).bind fun r w₁ hdocument => ?_
            generalize hd₁ : w₁.disk = d₁ at hdocument
            cases hdocument with
            | notWritten =>
                rintro e ⟨⟩
                exact ⟨.writeDocument, rfl, hd₁ ▸ .writeDocument⟩
            | notMoved hwritten =>
                rintro e ⟨⟩
                exact ⟨.moveDocument, rfl, hd₁ ▸ .moveDocument hwritten⟩
            | moved hwritten hmoved => exact endsAt_save (hd₁ ▸ .moved hwritten hmoved)
      · rw [Bool.eq_false_iff.2 hkey]
        rintro e ⟨⟩
        exact ⟨.checkKey, rfl, .checkKey⟩

/-! ### Places of the cache

The last letter of a place tells a document, the index and a file beside its place apart. -/

def lastLetter? (p : Place) : Option Char := p.head?.bind List.getLast?

theorem suffix_joinPath (dir name : String) : name.toList <:+ (joinPath dir name).toList := by
  rw [joinPath]
  split
  · exact List.suffix_rfl
  · split
    · rw [String.toList_append]
      exact List.suffix_append _ _
    · rw [String.toList_append]
      exact List.suffix_append _ _

theorem lastLetter?_of_resolve {ending : List Char} (hslash : '/' ∉ ending)
    (hlen : 2 < ending.length) (hpath : ending <:+ path.toList) (h : d.resolve path = .ok q) :
    lastLetter? q = ending.getLast? := by
  obtain ⟨name, here, rfl, front, rfl⟩ := Disk.name_of_resolve hslash hlen hpath h
  have hsome : ending.getLast?.isSome := by
    rw [List.getLast?_isSome]
    rintro rfl
    simp at hlen
  rw [lastLetter?, List.head?_cons, Option.bind_some, List.getLast?_append,
    Option.or_of_isSome hsome]

theorem lastLetter?_document (h : d.resolve (c.documentPath key) = .ok q) :
    lastLetter? q = some 'l' := by
  have hname : ".html".toList <:+ (key ++ "." ++ documentEnding).toList := by
    rw [String.append_assoc, String.toList_append]
    exact List.suffix_append _ _
  exact lastLetter?_of_resolve (by decide) (by decide) (hname.trans (suffix_joinPath _ _)) h

theorem lastLetter?_index (h : d.resolve c.indexPath = .ok q) : lastLetter? q = some 'n' :=
  lastLetter?_of_resolve (by decide) (by decide) (suffix_joinPath c.folder indexName) h

theorem lastLetter?_temporary (h : d.resolve (temporaryPath path) = .ok q) :
    lastLetter? q = some 'p' := by
  have hpath : ".tmp".toList <:+ (temporaryPath path).toList := by
    rw [temporaryPath, String.append_assoc, String.toList_append]
    exact List.suffix_append _ _
  exact lastLetter?_of_resolve (by decide) (by decide) hpath h

/-! ### What is left -/

/-- How the file at a place can differ after a `put` that failed at a step. -/
inductive Alters (c : Cache) (key : String) (document : Bytes) (step : PutStep) (d : Disk)
    (p : Place) : Prop where
  | document (stored : step.hasStored) (place : d.resolve (c.documentPath key) = .ok p)
      (stands : d.file? p = some document)
  /-- The document was moved from here. -/
  | moved (stored : step.hasStored)
      (place : d.resolve (temporaryPath (c.documentPath key)) = .ok p) (gone : d.file? p = none)
  /-- What is here could not be moved. -/
  | left {path : String} (unmoved : step.left? c key = some path) (place : d.resolve path = .ok p)

theorem lastLetter?_left {step : PutStep} (hpath : step.left? c key = some path)
    (h : d.resolve path = .ok q) : lastLetter? q = some 'p' := by
  cases step with
  | moveDocument | moveIndex =>
      obtain rfl := Option.some.inj hpath
      exact lastLetter?_temporary h
  | checkKey | makeFolder | writeDocument | writeIndex => cases hpath

/-- The disk is as it was but for what a `put` alters that fails at a step. -/
structure Leaves (c : Cache) (key : String) (document : Bytes) (step : PutStep) (d d' : Disk) :
    Prop where
  changes : ∃ ps, Disk.DiffersAt ps d d' ∧ ∀ q ∈ ps, c.Alters key document step d' q
  stands : step.hasStored → ∃ q, d'.resolve (c.documentPath key) = .ok q ∧
    d'.file? q = some document

namespace Leaves

variable {step : PutStep}

theorem refl (hstep : step.hasStored = false) (d : Disk) : Leaves c key document step d d :=
  ⟨⟨[], .refl d, nofun⟩, fun h => by simp [hstep] at h⟩

theorem store (hstep : step.hasStored) (h : Replaces (c.documentPath key) document d (.ok ()) d') :
    Leaves c key document step d d' := by
  cases h with
  | moved hwritten hmoved =>
      obtain ⟨p, hp, hwrite, hfile⟩ := Disk.differsAt_write hwritten
      obtain ⟨r, q, hr, hq, hmove, hstands, hgone⟩ := Disk.differsAt_rename hmoved
      obtain rfl : r = p := Except.ok.inj (hr.symm.trans (hwrite.resolve_iff.2 hp))
      have hplace := hmove.resolve_iff.2 hq
      refine ⟨⟨_, hwrite.trans hmove, fun s hs => ?_⟩, fun _ => ⟨q, hplace, hstands.trans hfile⟩⟩
      have hs : s = r ∨ s = q := by simpa using hs
      rcases hs with rfl | rfl
      · refine .moved hstep (hmove.resolve_iff.2 hr) (hgone ?_)
        -- the letter tells the document from the file beside it
        rintro rfl
        have hletter := lastLetter?_document hplace
        rw [lastLetter?_temporary hr] at hletter
        exact absurd hletter (by decide)
      · exact .document hstep hplace (hstands.trans hfile)

theorem write (h : Leaves c key document step d d₁) (hpath : step.left? c key = some path)
    (hwrite : d₁.write path content = .ok d') : Leaves c key document step d d' := by
  obtain ⟨p, hp, hdiffers, -⟩ := Disk.differsAt_write hwrite
  obtain ⟨ps, hps, halters⟩ := h.changes
  have hfile {q : Place} (hne : q ≠ p) : d'.file? q = d₁.file? q :=
    hdiffers.file?_eq (mt List.mem_singleton.1 hne)
  refine ⟨⟨ps ++ [p], hps.trans hdiffers, fun q hq => ?_⟩, fun hstored => ?_⟩
  · by_cases hne : q = p
    · exact .left hpath (hdiffers.resolve_iff.2 (hne ▸ hp))
    · have hmem : q ∈ ps := by simpa [hne] using hq
      cases halters q hmem with
      | document hstored hplace hstands =>
          exact .document hstored (hdiffers.resolve_iff.2 hplace) ((hfile hne).trans hstands)
      | moved hstored hplace hnone =>
          exact .moved hstored (hdiffers.resolve_iff.2 hplace) ((hfile hne).trans hnone)
      | left hleft hplace => exact .left hleft (hdiffers.resolve_iff.2 hplace)
  · obtain ⟨q, hdocument, hstands⟩ := h.stands hstored
    refine ⟨q, hdiffers.resolve_iff.2 hdocument, (hfile ?_).trans hstands⟩
    rintro rfl
    have hletter := lastLetter?_document hdocument
    rw [lastLetter?_left hpath hp] at hletter
    exact absurd hletter (by decide)

/-- What is read at a path that leads neither to a file beside its place nor to the document. -/
theorem toOption_read (h : Leaves c key document step d d')
    (hletter : ∀ q, d'.resolve path = .ok q → lastLetter? q ≠ some 'p')
    (hother : ∀ q, d'.resolve path = .ok q → step.hasStored →
      d'.resolve (c.documentPath key) ≠ .ok q) :
    (d'.read path).toOption = (d.read path).toOption := by
  obtain ⟨ps, hps, halters⟩ := h.changes
  refine hps.toOption_read fun q hq hpath => ?_
  have hpath' := hps.resolve_iff.2 hpath
  cases halters q hq with
  | document hstored hplace => exact hother q hpath' hstored hplace
  | moved _ hplace => exact hletter q hpath' (lastLetter?_temporary hplace)
  | left hleft hplace => exact hletter q hpath' (lastLetter?_left hleft hplace)

theorem index (h : Leaves c key document step d d') :
    (d'.read c.indexPath).toOption = (d.read c.indexPath).toOption := by
  refine h.toOption_read (fun q hq => ?_) (fun q hq _ hdocument => ?_)
  · rw [lastLetter?_index hq]
    decide
  · have hletter := lastLetter?_index hq
    rw [lastLetter?_document hdocument] at hletter
    exact absurd hletter (by decide)

theorem documents (h : Leaves c key document step d d') (other : String) :
    (d'.read (c.documentPath other)).toOption =
      if step.hasStored && d'.meet (c.documentPath other) (c.documentPath key) then some document
      else (d.read (c.documentPath other)).toOption := by
  by_cases hsame : step.hasStored && d'.meet (c.documentPath other) (c.documentPath key)
  · obtain ⟨hstored, hmeet⟩ := Bool.and_eq_true_iff.1 hsame
    obtain ⟨q, hplace, hfile⟩ := h.stands hstored
    rw [if_pos hsame, Disk.read_of_resolve ((Disk.meet_eq_true hplace).1 hmeet), hfile]
  · rw [if_neg hsame]
    refine h.toOption_read (fun q hq => ?_) fun q hq hstored hdocument => hsame ?_
    · rw [lastLetter?_document hq]
      decide
    · exact Bool.and_eq_true_iff.2 ⟨hstored, (Disk.meet_eq_true hdocument).2 hq⟩

theorem files (h : Leaves c key document step d d') (hp : d'.file? p ≠ d.file? p) :
    c.Alters key document step d' p := by
  obtain ⟨ps, hps, halters⟩ := h.changes
  exact halters p (Decidable.by_contra fun hnot => hp (hps.file?_eq hnot))

end Leaves

theorem FailsAt.leaves {step : PutStep} (h : FailsAt c key document d step d') :
    ∃ d₁, (d₁ = d ∨ d₁ = c.opened d) ∧ Leaves c key document step d₁ d' := by
  cases h with
  | checkKey => exact ⟨d, .inl rfl, .refl rfl d⟩
  | makeFolder | writeDocument => exact ⟨_, .inr rfl, .refl rfl (c.opened d)⟩
  | moveDocument hwritten =>
      exact ⟨_, .inr rfl, (Leaves.refl rfl (c.opened d)).write rfl hwritten⟩
  | writeIndex hstored => exact ⟨_, .inr rfl, .store rfl hstored⟩
  | moveIndex hstored hwritten =>
      exact ⟨_, .inr rfl, (Leaves.store rfl hstored).write rfl hwritten⟩

/-! ### What is found afterwards -/

/-- No index comes to light when the folder is made. One could that is behind a folder that is
missing, as the path `missing/../cache` leads. -/
def HidesNoIndex (c : Cache) (d : Disk) : Prop :=
  ∀ content, (c.opened d).read c.indexPath = .ok content → d.read c.indexPath = .ok content

theorem hidesNoIndex_of_leads (h : d.Leads c.folder p) : c.HidesNoIndex d := by
  rw [HidesNoIndex, opened, Disk.makeFolders_of_leads h]
  exact fun _ hread => hread

/-- Only a path that goes back can hide an index. -/
theorem hidesNoIndex_of_isTree (hd : d.IsTree) (hback : ['.', '.'] ∉ c.folder.toList.splitOn '/') :
    c.HidesNoIndex d := by
  intro content hread
  obtain ⟨p, hp, hfile⟩ := Disk.leads_of_read isPlain_indexName hread
  have hadds := Disk.addsFolders_makeFolders d c.folder
  have hfolder := hd _ _ _ (hadds.noFile _ _ hfile)
  have hleads : d.Leads c.folder p := Disk.walk_of_isTree hback hd hfolder hp
  exact hidesNoIndex_of_leads hleads content hread

theorem HidesNoIndex.index (h : c.HidesNoIndex d) :
    ((c.opened d).read c.indexPath).toOption = (d.read c.indexPath).toOption := by
  ext content
  simp only [Disk.toOption_eq_some]
  exact ⟨h content, Disk.read_of_addsFolders (Disk.addsFolders_makeFolders d c.folder)⟩

theorem opened_of_isFreshOn (h : c.isFreshOn d now key) : c.opened d = d := by
  obtain ⟨content, hread⟩ := exists_read_of_isFreshOn h
  obtain ⟨p, hp, -⟩ := Disk.leads_of_read isPlain_indexName hread
  exact Disk.makeFolders_of_leads hp

theorem index_of_leaves {step : PutStep} (hfolder : c.HidesNoIndex d)
    (hd₁ : d₁ = d ∨ d₁ = c.opened d) (h : Leaves c key document step d₁ d') :
    (d'.read c.indexPath).toOption = (d.read c.indexPath).toOption := by
  rw [h.index]
  rcases hd₁ with rfl | rfl
  · rfl
  · exact hfolder.index

theorem getOn_of_leaves {step : PutStep} (hfolder : c.HidesNoIndex d)
    (hd₁ : d₁ = d ∨ d₁ = c.opened d) (h : Leaves c key document step d₁ d') (now : Stamp)
    (other : String) :
    c.getOn d' now other =
      if step.hasStored && d'.meet (c.documentPath other) (c.documentPath key) then
        if c.isFreshOn d now other then some document else none
      else c.getOn d now other := by
  rw [getOn, getOn, isFreshOn_congr (index_of_leaves hfolder hd₁ h)]
  by_cases hfresh : c.isFreshOn d now other
  · have hsame : d₁ = d := by
      rcases hd₁ with hd₁ | hd₁
      · exact hd₁
      · rw [hd₁, opened_of_isFreshOn hfresh]
    rw [if_pos hfresh, if_pos hfresh, if_pos hfresh, ← hsame]
    exact h.documents other
  · rw [if_neg hfresh, if_neg hfresh, if_neg hfresh, ite_self]

/-- A `put` that fails keeps all entries, unless making the folder brings an index to light, which
only a path that goes back can do. Once the document is in its place, which it is when only the
index cannot be written, the keys get it whose documents are in this file, if their entries are
fresh; all else is got as before. No file is new or changed but that document, and one beside its
place if it could not be moved there. -/
theorem put_failed (he : ((c.put key name document).runWith others w).1 = .error e) :
    let w' := ((c.put key name document).runWith others w).2
    (w.disk.IsTree → ['.', '.'] ∉ c.folder.toList.splitOn '/' → c.HidesNoIndex w.disk) ∧
    ∃ step : PutStep, e = step.error c key ∧
      (c.HidesNoIndex w.disk → ∀ now k,
        ((c.entry k).runWith others { w' with now }).1 =
          ((c.entry k).runWith others { w with now }).1 ∧
        ((c.isFresh k).runWith others { w' with now }).1 =
          ((c.isFresh k).runWith others { w with now }).1 ∧
        ((c.get k).runWith others { w' with now }).1 =
          if step.hasStored && w'.disk.meet (c.documentPath k) (c.documentPath key) then
            if ((c.isFresh k).runWith others { w with now }).1 then some document else none
          else ((c.get k).runWith others { w with now }).1) ∧
      ∀ p, w'.disk.file? p ≠ w.disk.file? p → c.Alters key document step w'.disk p := by
  intro w'
  obtain ⟨step, rfl, hfails⟩ := endsAt_put c key name document w e he
  obtain ⟨d₁, hd₁, hleaves⟩ := hfails.leaves
  refine ⟨hidesNoIndex_of_isTree, step, rfl, fun hfolder now k => ⟨?_, ?_, ?_⟩, fun p hp => ?_⟩
  · rw [runWith_entry, runWith_entry]
    exact entryOn_congr (index_of_leaves hfolder hd₁ hleaves) k
  · rw [runWith_isFresh, runWith_isFresh]
    exact isFreshOn_congr (index_of_leaves hfolder hd₁ hleaves) now k
  · rw [runWith_get, runWith_get, runWith_isFresh]
    exact getOn_of_leaves hfolder hd₁ hleaves now k
  · refine hleaves.files fun hsame => hp (hsame.trans ?_)
    rcases hd₁ with rfl | rfl
    · rfl
    · exact (Disk.addsFolders_makeFolders w.disk c.folder).file?_eq p

/-- A document is stored, and a folder stands where the index would be written next. -/
def blockedWorld (c : Cache) : World :=
  let w : World :=
    { disk := .empty, now := default, remote := scripted [] (.error .timeout),
      reading := fun _ => .zero }
  let stored := ((c.put "rune" "Rune" [60]).runWith World.nobody w).2
  (stored.makeFolders (temporaryPath c.indexPath)).2

/-- It is the index that cannot be written, so no file differs but the document and the one that was
moved there. -/
theorem put_failed_blocked :
    let c : Cache := { folder := "cache" }
    let w := c.blockedWorld
    let run := (c.put "rune" "Rune" [60, 62]).runWith World.nobody w
    run.1 = .error (.disk "cache/index.json.tmp") ∧
      (∀ now k, ((c.entry k).runWith World.nobody { run.2 with now }).1 =
        ((c.entry k).runWith World.nobody { w with now }).1) ∧
      ∀ p, run.2.disk.file? p ≠ w.disk.file? p →
        run.2.disk.resolve (c.documentPath "rune") = .ok p ∧ run.2.disk.file? p = some [60, 62] ∨
        run.2.disk.resolve (temporaryPath (c.documentPath "rune")) = .ok p ∧
          run.2.disk.file? p = none := by
  intro c w run
  have hwalk : (w.disk.walk [] (c.folder.toList.splitOn '/')).toOption = some ["cache".toList] := by
    decide
  have hleads : w.disk.Leads c.folder ["cache".toList] := Disk.toOption_eq_some.1 hwalk
  have hrun : run.1 = .error (.disk "cache/index.json.tmp") := by decide
  obtain ⟨-, step, hstep, hlooks, hfiles⟩ := put_failed hrun
  refine ⟨hrun, fun now k => (hlooks (hidesNoIndex_of_leads hleads) now k).1, fun p hp => ?_⟩
  cases hfiles p hp with
  | document _ hplace hstands => exact .inl ⟨hplace, hstands⟩
  | moved _ hplace hnone => exact .inr ⟨hplace, hnone⟩
  | left hleft =>
      cases step with
      | moveDocument | moveIndex => exact absurd hstep (by decide)
      | checkKey | makeFolder | writeDocument | writeIndex => cases hleft

/-- A `put` that fails replaces the document of a key without its entry, leaves a document without
an entry, leaves a document or an index that it could not move, and brings an index to light. -/
theorem put_blocked :
    let c : Cache := { folder := "cache" }
    let far : Cache := { folder := "far/../cache" }
    let w := c.blockedWorld
    let again := (c.put "rune" "Rune" [60, 62]).runWith World.nobody w
    let other := (c.put "item" "Item" [60, 62]).runWith World.nobody w
    let taken := (w.makeFolders "cache/item.html").2
    let atDocument := (c.put "item" "Item" [60, 62]).runWith World.nobody taken
    let bare := (({ w with disk := .empty } : World).makeFolders "cache/index.json").2
    let atIndex := (c.put "item" "Item" [60, 62]).runWith World.nobody bare
    let behind := (far.put "item" "Item" [60, 62]).runWith World.nobody w
    (again.1.isOk = false ∧
      ((c.get "rune").runWith World.nobody w).1 = some [60] ∧
      ((c.get "rune").runWith World.nobody again.2).1 = some [60, 62]) ∧
    (other.1.isOk = false ∧
      (w.disk.read "cache/item.html").toOption = none ∧
      (other.2.disk.read "cache/item.html").toOption = some [60, 62]) ∧
    (atDocument.1.isOk = false ∧
      (taken.disk.read "cache/item.html.tmp").toOption = none ∧
      (atDocument.2.disk.read "cache/item.html.tmp").toOption = some [60, 62]) ∧
    (atIndex.1.isOk = false ∧
      (bare.disk.read "cache/index.json.tmp").toOption = none ∧
      (atIndex.2.disk.read "cache/index.json.tmp").toOption.isSome) ∧
    behind.1.isOk = false ∧
      ((far.entry "rune").runWith World.nobody w).1 = none ∧
      ((far.entry "rune").runWith World.nobody behind.2).1.isSome := by
  decide +kernel

end Cache

end StatAlmanac
