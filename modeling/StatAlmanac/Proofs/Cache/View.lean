import Mathlib.Logic.Function.Basic
import StatAlmanac.Proofs.Cache.Lookups
import StatAlmanac.Proofs.Cache.Shelf

/-!
What a cache shows to whoever looks: the index, as far as it can be read, and the
documents that are in the files of its keys. On any disk there is such a view.
Each change that a `put` or a `sweep` makes to a file changes the view in one
place or not at all: a file that is written beside its place does not show, one
that is moved to its place shows at once.
-/

namespace StatAlmanac

open Disk (IsPlain)

@[ext]
structure View where
  index : Index
  documents : String → Option Bytes

namespace View

variable {c : Cache} {v : View} {key other name : String} {now : Stamp} {document : Bytes}
  {keys more : List String} {r : Record}

def empty : View := ⟨Table.empty, fun _ => none⟩

/-- With a document in the place of the one before, its record still to come. -/
def store (v : View) (key : String) (document : Bytes) : View :=
  { v with documents := Function.update v.documents key (some document) }

def put (v : View) (key name : String) (now : Stamp) (document : Bytes) : View :=
  { v.store key document with index := v.index.insert key ⟨name, now, document.length⟩ }

/-- Without the documents of these keys, their records still to go. -/
def clear (v : View) (keys : List String) : View :=
  { v with documents := fun key => if key ∈ keys then none else v.documents key }

def sweep (c : Cache) (now : Stamp) (v : View) : View :=
  { v.clear (c.staleKeys now v.index) with
    index := (c.staleKeys now v.index).foldl Table.erase v.index }

theorem documents_store :
    (v.store key document).documents other =
      if other = key then some document else v.documents other := by
  simp [store, Function.update_apply]

theorem find?_index_put :
    (v.put key name now document).index.find? other =
      if other = key then some ⟨name, now, document.length⟩ else v.index.find? other :=
  Table.find?_insert ..

theorem documents_put :
    (v.put key name now document).documents other =
      if other = key then some document else v.documents other :=
  documents_store

theorem documents_clear :
    (v.clear keys).documents key = if key ∈ keys then none else v.documents key := rfl

@[simp] theorem clear_nil : v.clear [] = v := by simp [clear]

theorem clear_clear : (v.clear keys).clear more = v.clear (keys ++ more) := by
  simp only [clear, View.mk.injEq, List.mem_append, true_and]
  funext key
  by_cases hmore : key ∈ more <;> simp [hmore]

theorem clear_of_none (h : v.documents key = none) : v.clear [key] = v := by
  apply View.ext
  · rfl
  · funext other
    simp only [documents_clear, List.mem_singleton]
    split
    · rename_i hother
      rw [hother, h]
    · rfl

theorem mem_staleKeys {i : Index} :
    key ∈ c.staleKeys now i ↔
      ∃ r, i.find? key = some r ∧ (c.toEntry key r).isFresh now = false := by
  simp only [Cache.staleKeys, List.mem_map, List.mem_filter, Prod.exists, Bool.not_eq_true']
  constructor
  · rintro ⟨k, r, ⟨hr, hstale⟩, rfl⟩
    exact ⟨r, (i.mem_entries_iff k r).1 hr, hstale⟩
  · rintro ⟨r, hr, hstale⟩
    exact ⟨key, r, ⟨(i.mem_entries_iff key r).2 hr, hstale⟩, rfl⟩

theorem not_mem_staleKeys {i : Index} (hr : i.find? key = some r)
    (hfresh : (c.toEntry key r).isFresh now) : key ∉ c.staleKeys now i := by
  intro hmem
  obtain ⟨r', hr', hstale⟩ := mem_staleKeys.1 hmem
  obtain rfl : r = r' := Option.some.inj (hr.symm.trans hr')
  exact absurd hfresh (by simp [hstale])

theorem find?_index_sweep :
    (v.sweep c now).index.find? key =
      (v.index.find? key).filter fun r => (c.toEntry key r).isFresh now := by
  refine (Table.find?_foldl_erase _ _ _).trans ?_
  cases hr : v.index.find? key with
  | none => simp
  | some r =>
      cases hfresh : (c.toEntry key r).isFresh now with
      | true => rw [if_neg (not_mem_staleKeys hr hfresh), Option.filter_some, hfresh, if_pos rfl]
      | false =>
          rw [if_pos (mem_staleKeys.2 ⟨r, hr, hfresh⟩), Option.filter_some, hfresh,
            if_neg Bool.false_ne_true]

end View

namespace Cache

variable {c : Cache} {d d' : Disk} {p : Place} {key name : String} {document content : Bytes}
  {i : Index}

def view (c : Cache) (d : Disk) : View where
  index := c.indexOn d
  documents key := if isKey key then (d.read (c.documentPath key)).toOption else none

theorem documents_view (hkey : isKey key) :
    (c.view d).documents key = (d.read (c.documentPath key)).toOption := if_pos hkey

theorem isKey_of_documents (h : (c.view d).documents key = some document) : isKey key := by
  simp only [view, Option.ite_none_right_eq_some] at h
  exact h.1

theorem documents_congr
    (h : isKey key → d'.read (c.documentPath key) = d.read (c.documentPath key)) :
    (c.view d').documents key = (c.view d).documents key := by
  by_cases hkey : isKey key
  · rw [documents_view hkey, documents_view hkey, h hkey]
  · simp [view, hkey]

theorem indexOn_of_read (h : d'.read c.indexPath = d.read c.indexPath) :
    c.indexOn d' = c.indexOn d := by
  rw [indexOn, indexOn, loadOn, loadOn, h]

theorem indexOn_eq_empty (h : ∀ content, d.read c.indexPath ≠ .ok content) :
    c.indexOn d = Table.empty := by
  rw [indexOn_eq]
  cases hread : d.read c.indexPath with
  | ok content => exact absurd hread (h content)
  | error e => rfl

theorem exists_read_of_find? {r : Record} (h : (c.indexOn d).find? key = some r) :
    ∃ content, d.read c.indexPath = .ok content := by
  by_contra hnone
  rw [indexOn_eq_empty fun content hread => hnone ⟨content, hread⟩] at h
  cases h

theorem size_indexOn (c : Cache) (d : Disk) : ∀ e ∈ (c.indexOn d).entries, e.2.size < bound64 := by
  rw [indexOn_eq]
  cases hread : (d.read c.indexPath).toOption.bind Index.read? with
  | none => exact List.forall_mem_nil _
  | some i =>
      obtain ⟨content, -, hi⟩ := Option.bind_eq_some_iff.1 hread
      exact Index.size_of_read? hi

/-! ### Changes of the disk -/

/-- The files that show are the index and the documents. -/
theorem view_congr (hindex : d'.read c.indexPath = d.read c.indexPath)
    (hdocuments : ∀ key, isKey key → d'.read (c.documentPath key) = d.read (c.documentPath key)) :
    c.view d' = c.view d :=
  View.ext (indexOn_of_read hindex) (funext fun key => documents_congr (hdocuments key))

theorem view_beside
    (h : ∀ other, IsPlain other → other ≠ temporaryPath name →
      d'.read (joinPath c.folder other) = d.read (joinPath c.folder other)) :
    c.view d' = c.view d :=
  view_congr (h indexName isPlain_indexName (indexName_ne_temporaryPath name)) fun key hkey =>
    h (documentName key) (isPlain_documentName hkey) (documentName_ne_temporaryPath key name)

theorem view_store (hkey : isKey key) (hread : d'.read (c.documentPath key) = .ok document)
    (h : ∀ other, IsPlain other → other ≠ temporaryPath (documentName key) →
      other ≠ documentName key →
      d'.read (joinPath c.folder other) = d.read (joinPath c.folder other)) :
    c.view d' = (c.view d).store key document := by
  apply View.ext
  · exact indexOn_of_read (h indexName isPlain_indexName (indexName_ne_temporaryPath _)
      (documentName_ne_indexName key).symm)
  · funext other
    rw [View.documents_store]
    split
    · rename_i heq
      rw [heq, documents_view hkey, hread]
      rfl
    · rename_i hne
      exact documents_congr fun hother => h (documentName other) (isPlain_documentName hother)
        (documentName_ne_temporaryPath other _) fun heq => hne (documentName_injective heq)

theorem view_save (hsize : ∀ e ∈ i.entries, e.2.size < bound64)
    (hread : d'.read c.indexPath = .ok i.write)
    (h : ∀ other, IsPlain other → other ≠ temporaryPath indexName → other ≠ indexName →
      d'.read (joinPath c.folder other) = d.read (joinPath c.folder other)) :
    c.view d' = { c.view d with index := i } := by
  apply View.ext
  · show c.indexOn d' = i
    simp [indexOn_eq, hread, Except.toOption, Index.read?_write hsize]
  · funext key
    exact documents_congr fun hkey => h (documentName key) (isPlain_documentName hkey)
      (documentName_ne_temporaryPath key _) (documentName_ne_indexName key)

theorem view_remove (hd : d.Leads c.folder p) (hkey : isKey key)
    (hremove : d.remove (c.documentPath key) = .ok d') :
    d'.Leads c.folder p ∧ c.view d' = (c.view d).clear [key] := by
  have hname := isPlain_documentName hkey
  obtain ⟨hleads, hothers⟩ := Disk.removed_joinPath hd hname hremove
  obtain ⟨e, hgone⟩ := Disk.read_removed_joinPath hd hname hremove
  refine ⟨hleads, View.ext ?_ ?_⟩
  · exact indexOn_of_read
      (hothers indexName isPlain_indexName (documentName_ne_indexName key).symm)
  · funext other
    simp only [View.documents_clear, List.mem_singleton]
    split
    · rename_i heq
      rw [heq, documents_view hkey]
      exact congrArg Except.toOption hgone
    · rename_i hne
      exact documents_congr fun hother => hothers (documentName other)
        (isPlain_documentName hother) fun heq => hne (documentName_injective heq)

/-- A document that is missing when it is to be removed did not show. -/
theorem documents_of_missing (hremove : d.remove (c.documentPath key) = .error .missing) :
    (c.view d).documents key = none := by
  have hread : d.read (c.documentPath key) = .error .missing := by
    rw [Disk.remove] at hremove
    rw [Disk.read]
    cases hp : d.resolve (c.documentPath key) with
    | error e =>
        rw [hp] at hremove
        exact congrArg Except.error (Except.error.inj hremove)
    | ok p =>
        simp only [hp, bind, Except.bind] at hremove ⊢
        split at hremove
        · cases hremove
        · cases hremove
        · rfl
  simp [view, hread, Except.toOption]

/-! ### Where the folder is -/

/-- The path leads to a folder, or making the folder brings nothing to light. -/
def Placed (c : Cache) (d : Disk) : Prop := c.StartsBare d ∨ ∃ p, d.Leads c.folder p

theorem view_of_bare
    (h : ∀ name, IsPlain name → ∀ content, d.read (joinPath c.folder name) ≠ .ok content) :
    c.view d = .empty := by
  apply View.ext
  · exact indexOn_eq_empty (h indexName isPlain_indexName)
  · funext key
    by_cases hkey : isKey key
    · rw [documents_view hkey]
      cases hread : d.read (c.documentPath key) with
      | ok content => exact absurd hread (h _ (isPlain_documentName hkey) content)
      | error e => rfl
    · simp [view, hkey, View.empty]

theorem StartsBare.view (h : c.StartsBare d) : c.view d = .empty :=
  view_of_bare fun name hname content hread =>
    h name hname content (Disk.read_of_addsFolders (Disk.addsFolders_makeFolders d c.folder) hread)

theorem Placed.makeFolders (h : c.Placed d) (hmake : d.makeFolders c.folder = (.ok (), d')) :
    (∃ p, d'.Leads c.folder p) ∧ c.view d' = c.view d := by
  obtain rfl : (d.makeFolders c.folder).2 = d' := congrArg Prod.snd hmake
  rcases h with hbare | ⟨p, hp⟩
  · refine ⟨Disk.leads_makeFolders (congrArg Prod.fst hmake), ?_⟩
    rw [hbare.view, view_of_bare hbare]
  · rw [Disk.makeFolders_of_leads hp]
    exact ⟨⟨p, hp⟩, rfl⟩

end Cache

end StatAlmanac
