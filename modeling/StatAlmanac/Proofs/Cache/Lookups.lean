import StatAlmanac.Proofs.Disk.Change
import StatAlmanac.Proofs.Cache.Files

/-!
What a cache finds on a disk. A lookup leaves the world as it is, and what it
finds is up to the disk and the time of day alone: to what can be read of the
index, and of one document if its entry is fresh.
-/

namespace StatAlmanac

namespace Cache

variable {c : Cache} {d d' : Disk} {now : Stamp} {key : String} {content : Bytes}

/-! ### What is found -/

def loadOn (c : Cache) (d : Disk) : Option Index :=
  match d.read c.indexPath with
  | .ok content => Index.read? content
  | .error .missing => some Table.empty
  | .error .refused => none

def indexOn (c : Cache) (d : Disk) : Index := (c.loadOn d).getD Table.empty

def entryOn (c : Cache) (d : Disk) (key : String) : Option Entry :=
  if c.isEnabled then ((c.indexOn d).find? key).map (c.toEntry key) else none

def isFreshOn (c : Cache) (d : Disk) (now : Stamp) (key : String) : Bool :=
  (c.entryOn d key).any (·.isFresh now)

def getOn (c : Cache) (d : Disk) (now : Stamp) (key : String) : Option Bytes :=
  if c.isFreshOn d now key then (d.read (c.documentPath key)).toOption else none

/-! ### Lookups find it -/

variable (others : World.Others) (w : World)

theorem runWith_load (c : Cache) : c.load.runWith others w = (c.loadOn w.disk, w) := by
  rw [load, Job.runWith_bind]
  have hread : (Job.read c.indexPath).runWith others w = (w.disk.read c.indexPath, w) := rfl
  rw [hread, loadOn]
  cases w.disk.read c.indexPath with
  | ok content => rfl
  | error e => cases e <;> rfl

theorem runWith_index (c : Cache) : c.index.runWith others w = (c.indexOn w.disk, w) := by
  rw [index, Job.runWith_bind, runWith_load]
  rfl

theorem runWith_entry (c : Cache) (key : String) :
    (c.entry key).runWith others w = (c.entryOn w.disk key, w) := by
  rw [entry, entryOn]
  cases c.isEnabled with
  | false => rfl
  | true =>
      simp only [Bool.not_true, Bool.false_eq_true, if_false, if_true]
      rw [Job.runWith_bind, runWith_index]
      rfl

theorem runWith_isFresh (c : Cache) (key : String) :
    (c.isFresh key).runWith others w = (c.isFreshOn w.disk w.now key, w) := by
  rw [isFresh, Job.runWith_bind, runWith_entry, isFreshOn]
  cases c.entryOn w.disk key with
  | none => rfl
  | some e =>
      rw [Option.any_some, Job.runWith_bind, Job.runWith_now]
      rfl

theorem runWith_get (c : Cache) (key : String) :
    (c.get key).runWith others w = (c.getOn w.disk w.now key, w) := by
  rw [get, Job.runWith_bind, runWith_entry, getOn, isFreshOn]
  cases c.entryOn w.disk key with
  | none => rfl
  | some e =>
      rw [Option.any_some, Job.runWith_bind, Job.runWith_now]
      by_cases hfresh : e.isFresh w.now
      · rw [if_pos hfresh, if_pos hfresh]
        rfl
      · rw [if_neg hfresh, if_neg hfresh]
        rfl

variable {others w}

/-! ### On what it depends -/

/-- An index that cannot be read is as good as one that is missing. -/
theorem indexOn_eq (c : Cache) (d : Disk) :
    c.indexOn d = ((d.read c.indexPath).toOption.bind Index.read?).getD Table.empty := by
  rw [indexOn, loadOn]
  cases d.read c.indexPath with
  | ok content => rfl
  | error e => cases e <;> rfl

theorem entryOn_congr (h : (d'.read c.indexPath).toOption = (d.read c.indexPath).toOption)
    (key : String) : c.entryOn d' key = c.entryOn d key := by
  rw [entryOn, entryOn, indexOn_eq, indexOn_eq, h]

theorem isFreshOn_congr (h : (d'.read c.indexPath).toOption = (d.read c.indexPath).toOption)
    (now : Stamp) (key : String) : c.isFreshOn d' now key = c.isFreshOn d now key := by
  rw [isFreshOn, isFreshOn, entryOn_congr h]

theorem exists_read_of_isFreshOn (h : c.isFreshOn d now key) :
    ∃ content, d.read c.indexPath = .ok content := by
  cases hread : d.read c.indexPath with
  | ok content => exact ⟨content, rfl⟩
  | error e =>
      have hindex : c.indexOn d = Table.empty := by
        rw [indexOn_eq, hread]
        rfl
      rw [isFreshOn, entryOn, hindex, Table.find?_empty] at h
      simp at h

end Cache

end StatAlmanac
