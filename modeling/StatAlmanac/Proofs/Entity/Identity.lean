import StatAlmanac.Proofs.Cache.Confinement
import StatAlmanac.Proofs.Entity.Key
import StatAlmanac.Proofs.Entity.Segment
import StatAlmanac.Proofs.Text.Utf8

/-!
Keys tell entities apart. A slug is read back byte by byte, and what is read are
the bytes of the name in lower case; the kind stands in front of the first
underscore. So two keys are the same only for one kind and names that are the
same in lower case, and each key has a document of its own.
-/

namespace StatAlmanac

namespace Name

/-! ### Reading a slug -/

/-- The bytes that a slug is written for. An underscore stands for a space, and two digits behind a
hyphen for the byte with this number. -/
def slugBytes : List Char → Bytes
  | [] => []
  | '-' :: a :: b :: rest => (Api.hexByte? a b).toList ++ slugBytes rest
  | '_' :: rest => 0x20 :: slugBytes rest
  | c :: rest => UInt8.ofNat c.toNat :: slugBytes rest

theorem slugBytes_escaped (bytes : Bytes) (rest : List Char) :
    slugBytes ((bytes.flatMap fun b => '-' :: twoDigits Nat.digitChar b.toNat) ++ rest) =
      bytes ++ slugBytes rest := by
  induction bytes with
  | nil => rfl
  | cons b bytes ih =>
      rw [List.flatMap_cons, List.append_assoc, twoDigits, List.cons_append, List.cons_append,
        List.cons_append, List.nil_append, slugBytes, hexByte?_twoDigits (by decide), ih]
      rfl

theorem toNat_lt_of_isPlain {c : Char} (h : isPlain c) : c.toNat < 0x80 := by
  simp only [isPlain, Bool.or_eq_true, Bool.and_eq_true, decide_eq_true_eq] at h
  rcases h with ⟨-, hz⟩ | ⟨-, hnine⟩
  · have hle : c.toNat ≤ 'z'.toNat := hz
    exact Nat.lt_of_le_of_lt hle (by decide)
  · have hle : c.toNat ≤ '9'.toNat := hnine
    exact Nat.lt_of_le_of_lt hle (by decide)

theorem slugBytes_plain {c : Char} (h : isPlain c) (rest : List Char) :
    slugBytes (c :: rest) = UInt8.ofNat c.toNat :: slugBytes rest := by
  rw [slugBytes]
  · rintro a b rest rfl
    cases h
  · rintro rfl
    cases h

theorem slugBytes_slugChar (c : Char) (rest : List Char) :
    slugBytes (slugChar c ++ rest) = Text.Utf8.encodeChar c ++ slugBytes rest := by
  rw [slugChar]
  by_cases hplain : isPlain c
  · rw [if_pos hplain, Text.Utf8.encodeChar_of_lt (toNat_lt_of_isPlain hplain)]
    exact slugBytes_plain hplain rest
  · rw [if_neg hplain]
    by_cases hspace : c = ' '
    · subst hspace
      rfl
    · rw [if_neg hspace]
      exact slugBytes_escaped _ rest

theorem slugBytes_flatMap (s : List Char) :
    slugBytes (s.flatMap slugChar) = Text.Utf8.encode s := by
  induction s with
  | nil => rfl
  | cons c s ih =>
      rw [List.flatMap_cons, slugBytes_slugChar, ih]
      rfl

theorem slug_eq_iff {s t : List Char} :
    slug s = slug t ↔ Text.lowerText (normalize s) = Text.lowerText (normalize t) := by
  refine ⟨fun h => ?_, fun h => by rw [slug, slug, h]⟩
  have hbytes := congrArg slugBytes h
  rw [slug, slug, slugBytes_flatMap, slugBytes_flatMap] at hbytes
  exact Text.Utf8.encode_injective hbytes

/-- The kind of a key is what stands in front of its first underscore. -/
theorem key_eq_iff {k k' : Kind} {s t : List Char} :
    key k s = key k' t ↔
      k = k' ∧ Text.lowerText (normalize s) = Text.lowerText (normalize t) := by
  rw [← slug_eq_iff]
  cases k <;> cases k' <;> simp [key, Kind.name]

end Name

namespace Cache

variable {c : Cache} {key other : String}

/-! ### Documents of keys -/

theorem exists_joinPath_eq (dir : String) :
    ∃ front, ∀ name : String, '/' ∉ name.toList → joinPath dir name = front ++ name := by
  have hhead {name : String} (h : '/' ∉ name.toList) : name.toList.head? ≠ some '/' :=
    fun hslash => h (List.mem_of_head? hslash)
  by_cases hempty : dir = ""
  · exact ⟨"", fun name h => by simp [joinPath, hempty]⟩
  · by_cases hlast : dir.toList.getLast? = some '/'
    · exact ⟨dir, fun name h => by simp [joinPath, hempty, hlast, hhead h]⟩
    · exact ⟨dir ++ "/", fun name h => by simp [joinPath, hempty, hlast, hhead h]⟩

theorem joinPath_injective {dir name other : String} (hname : '/' ∉ name.toList)
    (hother : '/' ∉ other.toList) (h : joinPath dir name = joinPath dir other) : name = other := by
  obtain ⟨front, hfront⟩ := exists_joinPath_eq dir
  rw [hfront name hname, hfront other hother] at h
  have hlist := congrArg String.toList h
  rw [String.toList_append, String.toList_append] at hlist
  exact String.toList_injective (List.append_cancel_left hlist)

theorem documentPath_eq_iff (hkey : isKey key) (hother : isKey other) :
    c.documentPath key = c.documentPath other ↔ key = other := by
  refine ⟨fun h => documentName_injective ?_, fun h => h ▸ rfl⟩
  exact joinPath_injective (isPlain_documentName hkey).noSlash
    (isPlain_documentName hother).noSlash h

theorem documentPath_ne_indexPath (hkey : isKey key) : c.documentPath key ≠ c.indexPath := by
  intro h
  exact documentName_ne_indexName key
    (joinPath_injective (isPlain_documentName hkey).noSlash isPlain_indexName.noSlash h)

theorem documentPath_ne_temporaryPath (hkey : isKey key) (path : String) :
    c.documentPath key ≠ temporaryPath path := by
  obtain ⟨front, hfront⟩ := exists_joinPath_eq c.folder
  have hpath : c.documentPath key = front ++ documentName key :=
    hfront _ (isPlain_documentName hkey).noSlash
  apply ne_of_getLast?_ne
  simp [getLast?_temporaryPath, hpath, getLast?_documentName]

end Cache

namespace Almanac

/-- A key stands for one kind and one name in lower case. It holds nothing but the letters a to z,
digits, underscores and hyphens, and every cache takes it. Its document is directly in the folder of
the cache, is the document of no other key, and is neither the index nor a file that is written
beside another. -/
theorem keyOf_identifies (c : Cache) (k : Kind) (name : String) :
    (∀ (k' : Kind) (other : String),
      (keyOf k name = keyOf k' other ↔
        k = k' ∧ Text.lowerText (Name.normalize name.toList) =
          Text.lowerText (Name.normalize other.toList)) ∧
      (c.documentPath (keyOf k name) = c.documentPath (keyOf k' other) ↔
        keyOf k name = keyOf k' other)) ∧
    (∀ ch ∈ (keyOf k name).toList, Name.isKeyChar ch) ∧
    Cache.isKey (keyOf k name) ∧
    Disk.isChild c.folder (c.documentPath (keyOf k name)) ∧
    c.documentPath (keyOf k name) ≠ c.indexPath ∧
    ∀ path, c.documentPath (keyOf k name) ≠ Cache.temporaryPath path := by
  have hkey := isKey_keyOf k name
  refine ⟨fun k' other => ⟨?_, Cache.documentPath_eq_iff hkey (isKey_keyOf k' other)⟩, ?_, hkey,
    Cache.isChild_documentPath c (Cache.noSlash_of_isKey hkey),
    Cache.documentPath_ne_indexPath hkey, Cache.documentPath_ne_temporaryPath hkey⟩
  · rw [keyOf, keyOf, String.ofList_inj]
    exact Name.key_eq_iff
  · intro ch hch
    rw [keyOf, String.toList_ofList] at hch
    exact Name.isKeyChar_of_mem_key hch

end Almanac

end StatAlmanac
