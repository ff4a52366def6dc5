import StatAlmanac.Proofs.Cache.Failure

/-!
Whether the index can be rewritten. It can as long as no folder stands in its
place or in that of the file beside it, whatever it says and whatever files come
and go elsewhere. A sweep that cannot do so has removed documents all the same.
-/

namespace StatAlmanac

namespace Disk

variable {d d' : Disk} {ps : List Place} {path source target : String} {x : Bytes} {p q : Place}

def takes (d : Disk) (path : String) : Bool :=
  (d.resolve path).toOption.any fun p => d.find? p != some .folder

theorem takes_iff : d.takes path ↔ ∃ p, d.resolve path = .ok p ∧ d.find? p ≠ some .folder := by
  rw [takes, Option.any_eq_true]
  simp only [toOption_eq_some, bne_iff_ne]

theorem DiffersAt.takes_eq (h : DiffersAt ps d d') (path : String) :
    d'.takes path = d.takes path := by
  rw [Bool.eq_iff_iff, takes_iff, takes_iff]
  refine exists_congr fun p => ?_
  rw [h.resolve_iff]
  exact and_congr_right fun _ =>
    not_congr ⟨h.symm.keepsFolders p, h.keepsFolders p⟩

theorem isOk_write (d : Disk) (path : String) (x : Bytes) :
    (d.write path x).isOk = d.takes path := by
  rw [write, takes]
  cases d.resolve path with
  | error e => rfl
  | ok p =>
      simp only [bind, Except.bind, Except.toOption, Option.any_some]
      split
      · rename_i hfolder
        simp [hfolder, throw, throwThe, MonadExceptOf.throw, Except.isOk, Except.toBool]
      · rename_i hfolder
        rw [bne_iff_ne.2 hfolder]
        rfl

/-- A file that is there is moved wherever one can be written. -/
theorem isOk_rename (hsource : d.resolve source = .ok p) (hfile : d.find? p = some (.file x))
    (target : String) : (d.rename source target).isOk = d.takes target := by
  rw [rename, takes, hsource]
  cases d.resolve target with
  | error e => rfl
  | ok q =>
      simp only [bind, Except.bind, Except.toOption, Option.any_some, hfile]
      cases hq : d.find? q with
      | none => rfl
      | some n => cases n <;> rfl

end Disk

namespace Cache

variable {c : Cache} {d d' : Disk} {ps : List Place} {path : String} {others : World.Others}
  {w : World} {content : Bytes}

def canSave (c : Cache) (d : Disk) : Bool :=
  d.takes (temporaryPath c.indexPath) && d.takes c.indexPath

theorem canSave_of_differsAt (h : Disk.DiffersAt ps d d') : c.canSave d' = c.canSave d := by
  rw [canSave, canSave, h.takes_eq, h.takes_eq]

theorem isOk_writeFile (path : String) (content : Bytes) (w : World) :
    (writeFile path content).Yields others w fun r _ =>
      r.isOk = (w.disk.takes (temporaryPath path) && w.disk.takes path) := by
  refine .step (e := .write (temporaryPath path) content) ?_
  simp only [World.perform]
  have hwrite := w.disk.isOk_write (temporaryPath path) content
  cases hwritten : w.disk.write (temporaryPath path) content with
  | error e =>
      rw [hwritten] at hwrite
      rw [← hwrite]
      rfl
  | ok d₁ =>
      refine .step (e := .rename (temporaryPath path) path) ?_
      obtain ⟨p, hp, hdiffers, hfile⟩ := Disk.differsAt_write hwritten
      have hrename := Disk.isOk_rename (hdiffers.resolve_iff.2 hp) (Disk.file?_eq_some.1 hfile) path
      rw [hdiffers.takes_eq] at hrename
      rw [hwritten] at hwrite
      rw [← hwrite, ← hrename]
      simp only [World.perform, World.change]
      cases d₁.rename (temporaryPath path) path with
      | error e => rfl
      | ok d₂ => rfl

namespace Replaces

variable {r : Except CacheError Unit}

/-- The file beside the place may have come or gone, and what is in its place has changed only if
the writing succeeded. -/
theorem differsAt (h : Replaces path content d r d') :
    ∃ ps, Disk.DiffersAt ps d d' ∧ ∀ q ∈ ps, d.resolve (temporaryPath path) = .ok q ∨
      (r.isOk ∧ d.resolve path = .ok q) := by
  cases h with
  | notWritten => exact ⟨[], .refl d, List.forall_mem_nil _⟩
  | notMoved hwritten =>
      obtain ⟨p, hp, hdiffers, -⟩ := Disk.differsAt_write hwritten
      refine ⟨[p], hdiffers, fun q hq => ?_⟩
      rw [List.mem_singleton.1 hq]
      exact .inl hp
  | moved hwritten hmoved =>
      obtain ⟨p, hp, hwrite, -⟩ := Disk.differsAt_write hwritten
      obtain ⟨r, q, hr, hq, hmove, -⟩ := Disk.differsAt_rename hmoved
      rw [hwrite.resolve_iff] at hr hq
      refine ⟨_, hwrite.trans hmove, fun s hs => ?_⟩
      have hs : s = p ∨ s = r ∨ s = q := by simpa using hs
      rcases hs with rfl | rfl | rfl
      · exact .inl hp
      · exact .inl hr
      · exact .inr ⟨rfl, hq⟩

theorem read_eq (h : Replaces path content d (.ok ()) d') : d'.read path = .ok content := by
  cases h with
  | moved hwritten hmoved =>
      obtain ⟨p, hp, hwrite, hfile⟩ := Disk.differsAt_write hwritten
      obtain ⟨r, q, hr, hq, hmove, hstands, -⟩ := Disk.differsAt_rename hmoved
      obtain rfl : r = p := Except.ok.inj (hr.symm.trans (hwrite.resolve_iff.2 hp))
      rw [← Disk.toOption_eq_some, Disk.read_of_resolve (hmove.resolve_iff.2 hq), hstands, hfile]

theorem index_of_error {e : CacheError} (h : Replaces c.indexPath content d (.error e) d') :
    (d'.read c.indexPath).toOption = (d.read c.indexPath).toOption := by
  obtain ⟨ps, hdiffers, hplaces⟩ := h.differsAt
  refine hdiffers.toOption_read fun q hq hindex => ?_
  rcases hplaces q hq with htemporary | ⟨hok, -⟩
  · have hletter := lastLetter?_index hindex
    rw [lastLetter?_temporary htemporary] at hletter
    exact absurd hletter (by decide)
  · cases hok

theorem index_of_document {key : String} (h : Replaces (c.documentPath key) content d r d') :
    (d'.read c.indexPath).toOption = (d.read c.indexPath).toOption := by
  obtain ⟨ps, hdiffers, hplaces⟩ := h.differsAt
  refine hdiffers.toOption_read fun q hq hindex => ?_
  have hletter := lastLetter?_index hindex
  rcases hplaces q hq with htemporary | ⟨-, hdocument⟩
  · rw [lastLetter?_temporary htemporary] at hletter
    exact absurd hletter (by decide)
  · rw [lastLetter?_document hdocument] at hletter
    exact absurd hletter (by decide)

end Replaces

theorem yields_save (c : Cache) (i : Index) (w : World) :
    (c.save i).Yields others w fun r w' =>
      Replaces c.indexPath i.write w.disk r w'.disk ∧ r.isOk = c.canSave w.disk :=
  ⟨yields_writeFile c.indexPath i.write w, isOk_writeFile c.indexPath i.write w⟩

end Cache

end StatAlmanac
