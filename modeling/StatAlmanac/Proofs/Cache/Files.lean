import StatAlmanac.Proofs.Cache.Record
import StatAlmanac.Proofs.Cache.Shelf
import StatAlmanac.Proofs.Disk.Making
import StatAlmanac.Proofs.Job.Run

/-!
The files of a cache. The index file tells what is on the shelf and since when,
and the document of each key on it is in a file of its own. No document has the
name of the index, and none the name under which a file is written at first, so
that writing one file leaves the others alone.
-/

namespace StatAlmanac

open Disk (IsPlain)

def Shelf.index (m : Shelf) : Index := m.map Stored.record

namespace Cache

variable {c : Cache} {key name : String}

/-! ### The names in the folder -/

def documentName (key : String) : String := key ++ "." ++ documentEnding

theorem isPlain_of_length (hslash : '/' ∉ name.toList) (hlen : 2 < name.toList.length) :
    IsPlain name :=
  ⟨hslash, Disk.turn?_eq_none hlen⟩

theorem noSlash_of_isKey (hkey : isKey key) : '/' ∉ key.toList := by
  intro hmem
  have hany : key.toList.any (fun c => c == '/' || c == '\\') = true :=
    List.any_eq_true.2 ⟨'/', hmem, rfl⟩
  rw [isKey, hany] at hkey
  simp at hkey

/-- An ending makes a name plain that could stand for a turn without it. -/
theorem isPlain_withEnding {ending : String} (hname : '/' ∉ name.toList)
    (hending : '/' ∉ ending.toList) (hlen : 2 ≤ ending.toList.length) :
    IsPlain (name ++ "." ++ ending) := by
  apply isPlain_of_length
  · simpa using ⟨hname, hending⟩
  · have hdot : ".".toList.length = 1 := rfl
    rw [String.toList_append, String.toList_append, List.length_append, List.length_append]
    omega

theorem isPlain_documentName (hkey : isKey key) : IsPlain (documentName key) :=
  isPlain_withEnding (noSlash_of_isKey hkey) (by decide) (by decide)

theorem isPlain_indexName : IsPlain indexName := isPlain_of_length (by decide) (by decide)

theorem isPlain_temporaryPath (hname : IsPlain name) : IsPlain (temporaryPath name) :=
  isPlain_withEnding hname.noSlash (by decide) (by decide)

theorem temporaryPath_joinPath (dir : String) (hname : IsPlain name) :
    temporaryPath (joinPath dir name) = joinPath dir (temporaryPath name) := by
  have hhead : (temporaryPath name).toList.head? = name.toList.head? := by
    obtain ⟨c, rest, hc⟩ := List.exists_cons_of_ne_nil hname.ne_nil
    simp [temporaryPath, hc]
  rw [joinPath, joinPath, hhead]
  split
  · rfl
  · split
    · simp [temporaryPath, String.append_assoc]
    · simp [temporaryPath, String.append_assoc]

/-! The three kinds of names end in different letters. -/

theorem ne_of_getLast?_ne {other : String} (h : name.toList.getLast? ≠ other.toList.getLast?) :
    name ≠ other := by
  rintro rfl
  exact h rfl

theorem getLast?_documentName (key : String) : (documentName key).toList.getLast? = some 'l' := by
  simp [documentName, documentEnding]

theorem getLast?_temporaryPath (name : String) :
    (temporaryPath name).toList.getLast? = some 'p' := by
  simp [temporaryPath, temporaryEnding]

theorem getLast?_indexName : indexName.toList.getLast? = some 'n' := rfl

theorem documentName_ne_temporaryPath (key name : String) :
    documentName key ≠ temporaryPath name := by
  apply ne_of_getLast?_ne
  rw [getLast?_documentName, getLast?_temporaryPath]
  decide

theorem indexName_ne_temporaryPath (name : String) : indexName ≠ temporaryPath name := by
  apply ne_of_getLast?_ne
  rw [getLast?_indexName, getLast?_temporaryPath]
  decide

theorem documentName_ne_indexName (key : String) : documentName key ≠ indexName := by
  apply ne_of_getLast?_ne
  rw [getLast?_documentName, getLast?_indexName]
  decide

theorem documentName_injective {key other : String} (h : documentName key = documentName other) :
    key = other := by
  have hlist := congrArg String.toList h
  simp only [documentName, String.toList_append, List.append_assoc] at hlist
  exact String.toList_injective (List.append_cancel_right hlist)

/-! ### What is on the disk -/

/-- The index on the disk; where there is none, it is empty. -/
def HasIndex (c : Cache) (d : Disk) (i : Index) : Prop :=
  d.read c.indexPath = .ok i.write ∨
    (i = Table.empty ∧ ∀ content, d.read c.indexPath ≠ .ok content)

structure HasDocuments (c : Cache) (d : Disk) (m : Shelf) : Prop where
  leads : ∃ p, d.Leads c.folder p
  isKey : ∀ key s, m.find? key = some s → isKey key
  read : ∀ key s, m.find? key = some s → d.read (c.documentPath key) = .ok s.document

/-- There is no index in the folder, nor is there one when the folder is missing and is made. -/
def StartsEmpty (c : Cache) (d : Disk) : Prop :=
  ∀ content, (d.makeFolders c.folder).2.read c.indexPath ≠ .ok content

/-- Nothing can be read in the folder, nor is there anything when the folder is missing and
is made. -/
def StartsBare (c : Cache) (d : Disk) : Prop :=
  ∀ name, IsPlain name → ∀ content,
    (d.makeFolders c.folder).2.read (joinPath c.folder name) ≠ .ok content

structure Holds (c : Cache) (d : Disk) (m : Shelf) : Prop where
  index : c.HasIndex d m.index
  documents : (m = Table.empty ∧ c.StartsEmpty d) ∨ c.HasDocuments d m
  size : ∀ key s, m.find? key = some s → s.document.length < bound64

variable {d d' : Disk} {m : Shelf} {i : Index} {s : Stored} {p : Place} {content document : Bytes}
  {others : World.Others} {w : World}

theorem StartsBare.startsEmpty (h : c.StartsBare d) : c.StartsEmpty d :=
  h indexName isPlain_indexName

theorem hasIndex_of_read (h : c.HasIndex d i) (hread : d'.read c.indexPath = d.read c.indexPath) :
    c.HasIndex d' i := by
  rw [HasIndex, hread]
  exact h

theorem hasDocuments_empty (h : d.Leads c.folder p) : c.HasDocuments d Table.empty := by
  refine ⟨⟨p, h⟩, fun key s hs => ?_, fun key s hs => ?_⟩
  · cases hs
  · cases hs

theorem HasDocuments.of_read (h : c.HasDocuments d m) (hd : d'.Leads c.folder p)
    (hread : ∀ key, Cache.isKey key → d'.read (c.documentPath key) = d.read (c.documentPath key)) :
    c.HasDocuments d' m := by
  refine ⟨⟨p, hd⟩, h.isKey, fun key s hs => ?_⟩
  rw [hread key (h.isKey key s hs)]
  exact h.read key s hs

theorem Holds.size_index (h : c.Holds d m) : ∀ e ∈ m.index.entries, e.2.size < bound64 := by
  intro e he
  obtain ⟨f, hf, rfl⟩ := List.mem_map.1 he
  exact h.size f.1 f.2 ((m.mem_entries_iff f.1 f.2).1 hf)

theorem StartsEmpty.holds (h : c.StartsEmpty d) : c.Holds d Table.empty := by
  refine ⟨.inr ⟨rfl, fun content hread => ?_⟩, .inl ⟨rfl, h⟩, fun key s hs => ?_⟩
  · exact h content (Disk.read_of_addsFolders (Disk.addsFolders_makeFolders d c.folder) hread)
  · cases hs

/-- Once its folder is made, a cache has documents, if only those of an empty shelf. -/
theorem Holds.makeFolders (h : c.Holds d m) (hmake : (d.makeFolders c.folder).1 = .ok ()) :
    c.HasIndex (d.makeFolders c.folder).2 m.index ∧
      c.HasDocuments (d.makeFolders c.folder).2 m := by
  rcases h.documents with ⟨rfl, hstart⟩ | hdocuments
  · obtain ⟨p, hp⟩ := Disk.leads_makeFolders hmake
    exact ⟨.inr ⟨rfl, hstart⟩, hasDocuments_empty hp⟩
  · obtain ⟨p, hp⟩ := hdocuments.leads
    rw [Disk.makeFolders_of_leads hp]
    exact ⟨h.index, hdocuments⟩

/-! ### Reading and writing the files -/

theorem ensures_load (h : c.HasIndex w.disk i) (hsize : ∀ e ∈ i.entries, e.2.size < bound64) :
    c.load.Ensures others w fun r w' => r = some i ∧ w' = w := by
  refine .read fun hgranted => ?_
  rcases h with hread | ⟨rfl, hread⟩
  · rw [hread]
    exact .pure ⟨Index.read?_write hsize, rfl⟩
  · cases hr : w.disk.read c.indexPath with
    | ok content => exact absurd hr (hread content)
    | error e =>
        cases e with
        | missing => exact .pure ⟨rfl, rfl⟩
        | refused => exact absurd hr hgranted

theorem ensures_index (h : c.HasIndex w.disk i) (hsize : ∀ e ∈ i.entries, e.2.size < bound64) :
    c.index.Ensures others w fun r w' => r = i ∧ w' = w := by
  refine (ensures_load h hsize).bind fun r w' hr => .pure ?_
  obtain ⟨rfl, rfl⟩ := hr
  exact ⟨rfl, rfl⟩

theorem ensures_writeFile {dir : String} (hd : w.disk.Leads dir p) (hname : IsPlain name) :
    (writeFile (joinPath dir name) content).Ensures others w fun r w' =>
      r = .ok () ∧ w'.now = w.now ∧ w'.disk.Leads dir p ∧
        w'.disk.read (joinPath dir name) = .ok content ∧
        ∀ other, IsPlain other → other ≠ temporaryPath name → other ≠ name →
          w'.disk.read (joinPath dir other) = w.disk.read (joinPath dir other) := by
  have hbeside := isPlain_temporaryPath hname
  have hne : temporaryPath name ≠ name := by
    intro h
    have hlength := congrArg (fun s => s.toList.length) h
    simp [temporaryPath, temporaryEnding] at hlength
  rw [writeFile, temporaryPath_joinPath dir hname]
  refine .write fun d₁ hwrite => .rename fun d₂ hrename => .pure ?_
  exact ⟨rfl, rfl, Disk.replace_joinPath hd hbeside hname hne hwrite hrename⟩

theorem ensures_save (h : c.HasDocuments w.disk m) :
    (c.save i).Ensures others w fun r w' =>
      r = .ok () ∧ w'.now = w.now ∧ c.HasIndex w'.disk i ∧ c.HasDocuments w'.disk m := by
  obtain ⟨p, hp⟩ := h.leads
  refine (ensures_writeFile hp isPlain_indexName).mono fun r w' hw => ?_
  obtain ⟨hr, hnow, hleads, hindex, hothers⟩ := hw
  refine ⟨hr, hnow, .inl hindex, h.of_read hleads fun key hkey => ?_⟩
  exact hothers _ (isPlain_documentName hkey) (documentName_ne_temporaryPath key indexName)
    (documentName_ne_indexName key)

theorem ensures_writeDocument (hkey : isKey key) (h : c.HasDocuments w.disk m) :
    (writeFile (c.documentPath key) s.document).Ensures others w fun r w' =>
      r = .ok () ∧ w'.now = w.now ∧ w'.disk.read c.indexPath = w.disk.read c.indexPath ∧
        c.HasDocuments w'.disk (m.insert key s) := by
  obtain ⟨p, hp⟩ := h.leads
  refine (ensures_writeFile hp (isPlain_documentName hkey)).mono fun r w' hw => ?_
  obtain ⟨hr, hnow, hleads, hdocument, hothers⟩ := hw
  refine ⟨hr, hnow, ?_, ⟨p, hleads⟩, ?_, ?_⟩
  · exact hothers _ isPlain_indexName (indexName_ne_temporaryPath _)
      (documentName_ne_indexName key).symm
  · intro other t ht
    rcases Table.find?_insert_eq_some.1 ht with ⟨rfl, -⟩ | ⟨-, ht⟩
    · exact hkey
    · exact h.isKey other t ht
  · intro other t ht
    rcases Table.find?_insert_eq_some.1 ht with ⟨rfl, rfl⟩ | ⟨hne, ht⟩
    · exact hdocument
    · rw [← h.read other t ht]
      exact hothers _ (isPlain_documentName (h.isKey other t ht))
        (documentName_ne_temporaryPath other _) fun heq => hne (documentName_injective heq)

end Cache

end StatAlmanac
