import StatAlmanac.Cache.Record
import StatAlmanac.Proofs.Json.Decoded
import StatAlmanac.Proofs.Json.Trees
import StatAlmanac.Proofs.Table
import StatAlmanac.Proofs.Time.StampText

/-!
The index file: an index that was written, whatever its keys, names and times,
is read back as the same index. Whatever file an index is read from, the sizes in
it are numbers of 64 bits.
-/

namespace StatAlmanac

open Json

namespace Record

theorem isExact_toValue {r : Record} (h : r.size < bound64) : r.toValue.IsExact :=
  ⟨trivial, trivial, h, trivial⟩

theorem ofTree_toValue {r : Record} (h : r.size < bound64) : ofTree r.toValue.tree = .ok r := by
  have hstamp : stampOfTree (.text (some (String.ofList r.storedAt.write))) = .ok r.storedAt := by
    simp only [stampOfTree, Decode.text, bind, Except.bind, String.toList_ofList,
      Stamp.read?_write]
    rfl
  have hsize : Decode.natural bound64 (.number (some (.natural r.size))) = .ok r.size := by
    rw [Decode.natural, if_pos h]
  simp only [toValue, Value.tree, Value.memberTrees, ofTree, Decode.members, Draft.field,
    Draft.readName, Draft.readStamp, Draft.readSize, Decode.once, hstamp, hsize, Decode.text]
  rfl

/-! ### Sizes that are read -/

namespace Draft

variable {d d' : Draft} {t : Tree}

def IsMeasured (d : Draft) : Prop := ∀ n, d.size = some n → n < bound64

theorem isMeasured_readName (h : d.IsMeasured) (hread : readName t d = .ok d') :
    d'.IsMeasured := by
  obtain ⟨name, -, hd⟩ := Decode.bind_eq_ok.1 hread
  exact Except.ok.inj hd ▸ h

theorem isMeasured_readStamp (h : d.IsMeasured) (hread : readStamp t d = .ok d') :
    d'.IsMeasured := by
  obtain ⟨stamp, -, hd⟩ := Decode.bind_eq_ok.1 hread
  exact Except.ok.inj hd ▸ h

theorem isMeasured_readSize (hread : readSize t d = .ok d') : d'.IsMeasured := by
  obtain ⟨size, honce, hd⟩ := Decode.bind_eq_ok.1 hread
  obtain ⟨n, hn, rfl⟩ := Decode.once_eq_ok honce
  obtain rfl := Except.ok.inj hd
  intro m hm
  exact Option.some.inj hm ▸ Decode.natural_lt hn

theorem isMeasured_field {key : String} (h : d.IsMeasured) (hread : field key t d = .ok d') :
    d'.IsMeasured := by
  unfold field at hread
  split at hread
  · exact isMeasured_readName h hread
  · exact isMeasured_readStamp h hread
  · exact isMeasured_readSize hread
  · obtain ⟨_, -, hd⟩ := Decode.bind_eq_ok.1 hread
    exact Except.ok.inj hd ▸ h

theorem size_finish {r : Record} (h : d.IsMeasured) (hfinish : d.finish = .ok r) :
    r.size < bound64 := by
  obtain ⟨name, -, hfinish⟩ := Decode.bind_eq_ok.1 hfinish
  obtain ⟨stamp, -, hfinish⟩ := Decode.bind_eq_ok.1 hfinish
  obtain ⟨size, hsize, hr⟩ := Decode.bind_eq_ok.1 hfinish
  exact Except.ok.inj hr ▸ h size (Decode.required_eq_ok hsize)

end Draft

theorem size_ofTree {t : Tree} {r : Record} (h : ofTree t = .ok r) : r.size < bound64 := by
  have hstart : Draft.IsMeasured {} := by
    intro n hn
    cases hn
  cases t with
  | object ms isClosed =>
      obtain ⟨d, hd, hfinish⟩ := Decode.bind_eq_ok.1 h
      refine Draft.size_finish (Decode.members_invariant ?_ hstart hd) hfinish
      exact fun key t _ s s' hs => Draft.isMeasured_field hs
  | list items isClosed =>
      obtain ⟨d, hd, hfinish⟩ := Decode.bind_eq_ok.1 h
      refine Draft.size_finish (Decode.items_invariant ?_ hstart hd) hfinish
      intro field hfield t _ s s' hs hread
      rw [Draft.inOrder] at hfield
      simp only [List.mem_cons, List.not_mem_nil, or_false] at hfield
      rcases hfield with rfl | rfl | rfl
      · exact Draft.isMeasured_readName hs hread
      · exact Draft.isMeasured_readStamp hs hread
      · exact Draft.isMeasured_readSize hread
  | null | bool | number | text | broken => cases h

end Record

namespace Index

theorem membersAreExact {l : List (String × Record)} (h : ∀ e ∈ l, e.2.size < bound64) :
    Value.MembersAreExact (l.map fun e => (e.1, e.2.toValue)) := by
  induction l with
  | nil => trivial
  | cons e l ih =>
      exact ⟨Record.isExact_toValue (h e (by simp)), ih fun d hd => h d (by simp [hd])⟩

theorem members_toValue {l : List (String × Record)} (h : ∀ e ∈ l, e.2.size < bound64)
    (found : List (String × Record)) :
    Decode.members (fun key t found => return (key, ← Record.ofTree t) :: found) true
      (Value.memberTrees (l.map fun e => (e.1, e.2.toValue))) found =
      (.ok (l.reverse ++ found) : Except Fault _) := by
  induction l generalizing found with
  | nil => rfl
  | cons e l ih =>
      have hrecord := Record.ofTree_toValue (h e (by simp))
      simp only [List.map_cons, Value.memberTrees, Decode.members, hrecord, bind, Except.bind,
        pure, Except.pure]
      refine (ih (fun d hd => h d (by simp [hd])) _).trans ?_
      rw [List.reverse_cons, List.append_assoc]
      rfl

theorem ofTree_toValue {i : Index} (h : ∀ e ∈ i.entries, e.2.size < bound64) :
    ofTree i.toValue.tree = .ok i := by
  have hm := members_toValue h []
  rw [List.append_nil] at hm
  have htable : Decode.table Record.ofTree i.toValue.tree = .ok i.entries := by
    rw [toValue, Value.tree, Decode.table, hm]
    exact congrArg Except.ok (List.reverse_reverse _)
  rw [ofTree, htable]
  exact congrArg Except.ok (Table.ofList_entries i)

theorem read?_write {i : Index} (h : ∀ e ∈ i.entries, e.2.size < bound64) :
    read? i.write = some i := by
  have hexact : i.toValue.IsExact := membersAreExact h
  rw [read?, write, Text.Utf8.decode?_encode, Option.isSome_some, if_pos rfl, whole_pretty _ hexact,
    ofTree_toValue h]
  rfl

theorem size_table {t : Tree} {l : List (String × Record)}
    (h : Decode.table Record.ofTree t = .ok l) : ∀ e ∈ l, e.2.size < bound64 := by
  cases t with
  | object ms isClosed => exact Decode.forall_mem_table (fun m _ r hr => Record.size_ofTree hr) h
  | null | bool | number | text | list | broken => cases h

theorem size_of_read? {body : Bytes} {i : Index} (h : read? body = some i) :
    ∀ e ∈ i.entries, e.2.size < bound64 := by
  rw [read?] at h
  split at h
  · cases hwhole : Decode.whole ofTree body with
    | error e =>
        rw [hwhole] at h
        cases h
    | ok j =>
        rw [hwhole] at h
        obtain rfl := Option.some.inj h
        obtain ⟨l, hl, hi⟩ := Decode.bind_eq_ok.1 (Decode.of_whole hwhole)
        obtain rfl := Except.ok.inj hi
        exact fun e he => size_table hl e (Table.mem_of_mem_ofList he)
  · cases h

end Index

end StatAlmanac
